import MoonlightPsp.RtpFec.SentFrame
import MoonlightPsp.RtpFec.Bookkeeping

/-!
# The FEC layer: rebuilding a frame

With as many packets of a frame as it has data packets, whichever they are, the
layer hands on the data packets of the frame, those that were lost among them.
-/

namespace MoonlightPsp.RtpFec

open Loops ReedSolomon

variable {F : SentFrame} {s : Fec}

namespace SentFrame

/-- The layer takes frames like this one. -/
structure FitsLayer (F : SentFrame) (c : FecConfig) : Prop where
  frameIndex : F.frameIndex ≠ noFrame
  data_le : F.dataPkts ≤ fecMaxReasonableDataPackets c
  total_le : F.totalPkts ≤ fecMaxPackets
  packetSize : F.packetSize = fecConfiguredPacketSize c

/-- The current frame is this one. -/
structure IsCurrent (F : SentFrame) (s : Fec) : Prop where
  currentFrame : s.currentFrame = F.frameIndex
  lowestSeq : s.lowestSeq = F.firstSeq
  dataPackets : s.dataPackets = F.dataPkts
  parityPackets : s.parityPackets = F.parityPkts
  totalPackets : s.totalPackets = F.totalPkts
  numFecBlocks : s.numFecBlocks = 1

theorem IsCurrent.of_same {t : Fec} (hs : F.IsCurrent s) (h : SameFrame s t) :
    F.IsCurrent t where
  currentFrame := h.currentFrame.trans hs.currentFrame
  lowestSeq := h.lowestSeq.trans hs.lowestSeq
  dataPackets := h.dataPackets.trans hs.dataPackets
  parityPackets := h.parityPackets.trans hs.parityPackets
  totalPackets := h.totalPackets.trans hs.totalPackets
  numFecBlocks := h.numFecBlocks.trans hs.numFecBlocks

/-- A packet in a slot of the frame: it stands for the data packet of the slot, or is
some parity packet. -/
structure InSlot (F : SentFrame) (i : ℕ) (p : Packet) : Prop where
  lt : i < F.totalPkts
  extension : hasExtension p = F.extension
  length : 12 ≤ p.length
  carries : i < F.dataPkts → F.Carries i p

/-- What reassembly receives of the frame: the data packets in their order. -/
structure DeliveredBy (F : SentFrame) (sub : Submission) : Prop where
  frame : sub.frame = F.frameIndex
  length : sub.shards.length = F.dataPkts
  shard : ∀ i < F.dataPkts, ∃ p, sub.shards[i]? = some ⟨0, i, p⟩ ∧ F.Delivers i p

end SentFrame

/-! ## Submitting -/

/-- With a packet in every data slot that stands for the original one, the frame is
delivered. -/
theorem submitFramePackets_delivers (env : FecEnv) (hF : F.WellFormed)
    (hsize : 16 ≤ F.packetSize) (htotal : F.totalPkts ≤ fecMaxPackets)
    (hs : F.IsCurrent s)
    (hslots : ∀ i < F.dataPkts, ∃ p, s.slots i = some p ∧ F.Carries i p) :
    ∃ sub, (submitFramePackets env s).out =
        s.out ++ [.prepare s.currentFrame, .submitted sub] ∧ F.DeliveredBy sub := by
  have hle : F.dataPkts ≤ F.totalPkts := Nat.le_add_right _ _
  have hpos := hF.data_pos
  have hshard : ∀ i < F.dataPkts, ∃ p,
      shardAt (s.emit (.prepare s.currentFrame)) 0 i i = some ⟨0, i, p⟩ ∧
        F.Delivers i p := by
    intro i hi
    obtain ⟨p, hp, hcarries⟩ := hslots i hi
    have hlen : p.length > 0 := by
      rw [hcarries.length]
      omega
    refine ⟨patchFrameId p s.currentFrame, ?_,
      (hcarries.patchFrameId hsize _).delivers hF hi hsize⟩
    have hp' : (s.emit (.prepare s.currentFrame)).slots i = some p := hp
    rw [shardAt, if_pos (by omega), hp']
    exact if_pos hlen
  choose! g hg hdelivers using hshard
  have hshards : (List.range F.dataPkts).filterMap
      (fun i => shardAt (s.emit (.prepare s.currentFrame)) 0 i i) =
        (List.range F.dataPkts).map fun i => ⟨0, i, g i⟩ := by
    apply List.filterMap_eq_map_iff_forall_eq_some.mpr
    intro i hi
    exact hg i (List.mem_range.mp hi)
  obtain ⟨p, hzero, -⟩ := hslots 0 hpos
  have hsof : ¬((s.emit (.prepare s.currentFrame)).slots 0).isNone := by
    have hp' : (s.emit (.prepare s.currentFrame)).slots 0 = some p := hzero
    rw [hp']
    exact Bool.false_ne_true
  refine ⟨⟨s.currentFrame, s.lowestSeq, blockSizes s,
    (List.range F.dataPkts).map fun i => ⟨0, i, g i⟩,
    if s.totalPackets > 0 then some (s.lowestSeq + UInt16.ofNat s.totalPackets) else none⟩,
    ?_, hs.currentFrame, by simp, ?_⟩
  · have hnum : ¬(s.emit (.prepare s.currentFrame)).numFecBlocks > 1 := by
      show ¬s.numFecBlocks > 1
      rw [hs.numFecBlocks]
      omega
    rw [submitFramePackets, submitSlots, if_neg hnum, if_neg fun h => hsof h.1]
    have hdata : (s.emit (.prepare s.currentFrame)).dataPackets = F.dataPkts :=
      hs.dataPackets
    rw [hdata, hshards]
    show (s.out ++ [_]) ++ [_] = _
    rw [List.append_assoc]
    rfl
  · intro i hi
    refine ⟨g i, ?_, hdelivers i hi⟩
    simp [hi]

/-! ## Putting rebuilt packets into their slots -/

/-- A received packet gives a rebuilt one its header. -/
theorem headerReference_of_inSlot (hs : F.IsCurrent s)
    (htotal : F.totalPkts ≤ fecMaxPackets)
    (hslots : ∀ i p, s.slots i = some p → F.InSlot i p) {i j : ℕ} (hne : j ≠ i)
    (hj : (s.slots j).isSome) :
    ∃ ref, headerReference s i = some ref ∧ hasExtension ref = F.extension := by
  have husable : ∀ k ref, (if k ≠ i then (s.slots k).filter (·.length ≥ 12) else none) =
      some ref → hasExtension ref = F.extension := by
    intro k ref hk
    split at hk
    · obtain ⟨hslot, -⟩ := Option.filter_eq_some_iff.mp hk
      exact (hslots k ref hslot).extension
    · cases hk
  rw [headerReference]
  simp only
  split
  · rename_i ref href
    obtain ⟨k, -, hk⟩ := List.exists_of_findSome?_eq_some href
    split at hk
    · exact ⟨ref, rfl, husable k ref hk⟩
    · cases hk
  · obtain ⟨p, hp⟩ := Option.isSome_iff_exists.mp hj
    have hin := hslots j p hp
    have hlt : j < min s.totalPackets fecMaxPackets := by
      have := hin.lt
      rw [hs.totalPackets]
      omega
    have hfound : (if j ≠ i then (s.slots j).filter (·.length ≥ 12) else none) = some p := by
      rw [if_pos hne, hp]
      simpa using hin.length
    cases href : (List.range (min s.totalPackets fecMaxPackets)).findSome? fun k =>
        if k ≠ i then (s.slots k).filter (·.length ≥ 12) else none with
    | none =>
        have hnone := List.findSome?_eq_none_iff.mp href j (List.mem_range.mpr hlt)
        rw [hfound] at hnone
        cases hnone
    | some ref =>
        obtain ⟨k, -, hk⟩ := List.exists_of_findSome?_eq_some href
        exact ⟨ref, rfl, husable k ref hk⟩

theorem spi_succ (F : SentFrame) (i : ℕ) :
    F.spi (i + 1) = (F.spi i + 1) &&& 0x00FFFFFF := by
  have hmask : ∀ x : UInt32, (x &&& 0x00FFFFFF).toNat = x.toNat % 2 ^ 24 := by
    intro x
    rw [UInt32.toNat_and]
    exact Nat.and_two_pow_sub_one_eq_mod _ 24
  apply UInt32.toNat_inj.mp
  have hone : (1 : UInt32).toNat = 1 := rfl
  simp only [SentFrame.spi, hmask, UInt32.toNat_add, UInt32.toNat_ofNat', hone]
  omega

/-- The packets around a slot follow each other in the stream. -/
theorem fecSlotNv_cases (hF : F.WellFormed) (hsize : 16 ≤ F.packetSize)
    (htotal : F.totalPkts ≤ fecMaxPackets)
    (hslots : ∀ i p, s.slots i = some p → F.InSlot i p) {i : ℕ} (hi : i < F.dataPkts) :
    fecSlotNv s i = none ∨ ∃ nv, fecSlotNv s i = some nv ∧
      byteAt nv.1 (nv.2 + 8) = F.flags i ∧ fecNvStreamPacketIndex nv = F.spi i := by
  have hle : F.dataPkts ≤ F.totalPkts := Nat.le_add_right _ _
  rw [fecSlotNv, if_neg (by omega)]
  cases hp : s.slots i with
  | none => exact .inl rfl
  | some p =>
      have hcarries := (hslots i p hp).carries hi
      simp only [hcarries.nv hsize]
      exact .inr ⟨_, rfl, hcarries.flags hF hi, hcarries.spi hF hi⟩

/-- The flags of a data packet, bit by bit. -/
theorem flags_bits (first last : Prop) [Decidable first] [Decidable last] :
    let flags : UInt8 := 0x01 ||| (if first then 0x04 else 0) ||| (if last then 0x02 else 0)
    flags &&& ~~~(0x04 ||| 0x02 ||| 0x01) = 0 ∧ (flags &&& 0x04 = 0 ↔ ¬first) ∧
      (flags &&& 0x02 = 0 ↔ ¬last) ∧ flags &&& 0x01 ≠ 0 := by
  by_cases hfirst : first
  · by_cases hlast : last
    · simp only [hfirst, hlast, if_true]
      decide
    · simp only [hfirst, hlast, if_true, if_false]
      decide
  · by_cases hlast : last
    · simp only [hfirst, hlast, if_true, if_false]
      decide
    · simp only [hfirst, hlast, if_false]
      decide

/-- A packet that stands for the original one passes the validation. -/
theorem fecValidateRecoveredDataPacket_of_inSlot (hF : F.WellFormed)
    (hsize : 16 ≤ F.packetSize) (htotal : F.totalPkts ≤ fecMaxPackets)
    (hslots : ∀ i p, s.slots i = some p → F.InSlot i p) {i : ℕ} (hi : i < F.dataPkts)
    (hsome : (s.slots i).isSome) :
    fecValidateRecoveredDataPacket s i F.dataPkts = true := by
  obtain ⟨p, hp⟩ := Option.isSome_iff_exists.mp hsome
  have hcases {j : ℕ} (hj : j < F.dataPkts) := fecSlotNv_cases hF hsize htotal hslots hj
  obtain hnone | ⟨nv, hnv, hflags, hspi⟩ := hcases hi
  · have hle : F.dataPkts ≤ F.totalPkts := Nat.le_add_right _ _
    rw [fecSlotNv, if_neg (by omega), hp] at hnone
    simp only [((hslots i p hp).carries hi).nv hsize] at hnone
    cases hnone
  obtain ⟨hbits, hsof, heof, hpic⟩ := flags_bits (i = 0) (i + 1 = F.dataPkts)
  rw [fecValidateRecoveredDataPacket, hnv]
  simp only [hflags, SentFrame.flags]
  rw [if_neg (by simp [hbits]), if_neg (by simp [hsof]), if_neg (by simp [hsof]),
    if_neg (by simp [heof]), if_neg (by simp [heof]), if_neg (by simp [hpic])]
  rw [Bool.and_eq_true, Bool.or_eq_true, Bool.or_eq_true, decide_eq_true_eq,
    decide_eq_true_eq]
  constructor
  · by_cases hfirst : i = 0
    · exact .inl hfirst
    · right
      obtain hnone | ⟨before, hbefore, -, hprev⟩ := hcases (show i - 1 < F.dataPkts by omega)
      · rw [hnone]
        rfl
      · rw [hbefore, spiFollows, decide_eq_true_eq, hspi, hprev, ← spi_succ,
          Nat.sub_add_cancel (by omega)]
  · by_cases hlast : i + 1 ≥ F.dataPkts
    · exact .inl hlast
    · right
      obtain hnone | ⟨after, hafter, -, hnext⟩ := hcases (show i + 1 < F.dataPkts by omega)
      · rw [hnone]
        rfl
      · rw [hafter, spiFollows, decide_eq_true_eq, hspi, hnext, spi_succ]

/-- The loop over the first data slots has filled them, each with a packet that stands
for the original one. -/
structure Refilled (F : SentFrame) (s : Fec) (n : ℕ) (q : RequeueState) : Prop where
  valid : q.invalid = false
  same : SameFrame s q.s
  out : q.s.out = s.out
  inSlot : ∀ i p, q.s.slots i = some p → F.InSlot i p
  kept : ∀ i, (s.slots i).isSome → (q.s.slots i).isSome
  filled : ∀ i < n, (q.s.slots i).isSome

variable {c : FecConfig}

/-- One turn of the loop. -/
theorem Refilled.turn (hF : F.WellFormed) (hfits : F.FitsLayer c) (hs : F.IsCurrent s)
    (hany : ∃ j, (s.slots j).isSome) {rebuilt : ℕ → Buf} {n : ℕ} (hn : n < F.dataPkts)
    (hrebuilt : ∀ t < F.symbolSize, ¬F.IsOwn t →
      rebuilt n t = bufOfPacket (F.packets n) t) {q : RequeueState}
    (hq : Refilled F s n q) :
    Refilled F s (n + 1)
      (requeueOne c (frameMarks s) rebuilt (fecRecoverySymbolSize c) n q) := by
  have hbounds := fecConfiguredPacketSize_bounds c
  have hsize := hfits.packetSize
  have htotal := hfits.total_le
  have hle : F.dataPkts ≤ F.totalPkts := Nat.le_add_right _ _
  have hqs := hs.of_same hq.same
  rw [requeueOne]
  split
  · rename_i hskip
    have hpresent : (s.slots n).isSome := by
      simpa [hq.valid, frameMarks] using hskip
    refine ⟨hq.valid, hq.same, hq.out, hq.inSlot, hq.kept, ?_⟩
    intro i hi
    by_cases heq : i = n
    · rw [heq]
      exact hq.kept n hpresent
    · exact hq.filled i (by omega)
  rename_i hgo
  have hlost : s.slots n = none := by
    simpa [hq.valid, frameMarks] using hgo
  obtain ⟨hsame, hout, hsome, hother, -⟩ := requeueRecovered_spec c q.s n 0 0 (rebuilt n)
  obtain ⟨j, hj⟩ := hany
  have hne : j ≠ n := by
    rintro rfl
    rw [hlost] at hj
    cases hj
  obtain ⟨ref, href, hext⟩ := headerReference_of_inSlot hqs htotal hq.inSlot hne
    (hq.kept j hj)
  have hcarries := carries_rebuilt hF hsize hn (by omega) hqs.lowestSeq href hext hrebuilt
  have hinSlot : ∀ i p, (requeueRecovered c q.s n 0 0 (rebuilt n)
      (fecRecoverySymbolSize c)).slots i = some p → F.InSlot i p := by
    intro i p hp
    by_cases heq : i = n
    · subst heq
      simp only [requeueRecovered, Function.update_self, Option.some.injEq] at hp
      have hcarries : F.Carries i p := by
        rw [← hp]
        exact hcarries
      refine ⟨by omega, hcarries.extension, ?_, fun _ => hcarries⟩
      rw [hcarries.length]
      omega
    · rw [hother i heq] at hp
      exact hq.inSlot i p hp
  have hkept : ∀ i, (q.s.slots i).isSome → ((requeueRecovered c q.s n 0 0 (rebuilt n)
      (fecRecoverySymbolSize c)).slots i).isSome := by
    intro i hi
    by_cases heq : i = n
    · rw [heq]
      exact hsome
    · rwa [hother i heq]
  have hvalid := fecValidateRecoveredDataPacket_of_inSlot hF (by omega) htotal hinSlot hn
    hsome
  have hdata : (requeueRecovered c q.s n 0 0 (rebuilt n)
      (fecRecoverySymbolSize c)).dataPackets = F.dataPkts :=
    (hqs.of_same hsame).dataPackets
  simp only [hdata, hvalid, if_true]
  refine ⟨rfl, hq.same.trans hsame, hout.trans hq.out, hinSlot,
    fun i hi => hkept i (hq.kept i hi), ?_⟩
  intro i hi
  by_cases heq : i = n
  · rw [heq]
    exact hsome
  · exact hkept i (hq.filled i (by omega))

/-- After the loop every data slot has its packet. -/
theorem requeueFrame_refilled (hF : F.WellFormed) (hfits : F.FitsLayer c)
    (hs : F.IsCurrent s) (hslots : ∀ i p, s.slots i = some p → F.InSlot i p)
    (hany : ∃ j, (s.slots j).isSome) {rebuilt : ℕ → Buf}
    (hrebuilt : ∀ i < F.dataPkts, ∀ t < F.symbolSize, ¬F.IsOwn t →
      rebuilt i t = bufOfPacket (F.packets i) t) :
    Refilled F s F.dataPkts
      (requeueFrame c s (frameMarks s) rebuilt (fecRecoverySymbolSize c)) := by
  rw [requeueFrame, ← hs.dataPackets]
  refine fold_invariant (Refilled F s) ⟨rfl, .refl s, rfl, hslots, fun _ h => h,
    fun i hi => absurd hi (Nat.not_lt_zero i)⟩ ?_
  intro n hn q hq
  rw [hs.dataPackets] at hn
  exact hq.turn hF hfits hs hany hn (hrebuilt n hn)

/-! ## Rebuilding -/

/-- The slots hold packets of the frame as they were sent. -/
def Original (F : SentFrame) (s : Fec) : Prop :=
  ∀ i p, s.slots i = some p → i < F.totalPkts ∧ p = F.packets i

theorem Original.inSlot (h : Original F s) (hF : F.WellFormed)
    (hsize : 16 ≤ F.packetSize) : ∀ i p, s.slots i = some p → F.InSlot i p := by
  intro i p hp
  obtain ⟨hlt, rfl⟩ := h i p hp
  have hcases := F.nvOffset_cases
  refine ⟨hlt, hF.extension i hlt, ?_, hF.carries⟩
  by_cases hi : i < F.dataPkts
  · rw [hF.length_data i hi]
    omega
  · rw [hF.length_parity i hlt (by omega), SentFrame.symbolSize]
    omega

theorem shardBuffers_of_original (h : Original F s) {i : ℕ}
    (hmark : frameMarks s i = false) :
    shardBuffers s 0 i = bufOfPacket (F.packets i) := by
  rw [frameMarks, Option.isNone_eq_false_iff] at hmark
  obtain ⟨p, hp⟩ := Option.isSome_iff_exists.mp hmark
  obtain ⟨-, rfl⟩ := h i p hp
  rw [shardBuffers, Nat.zero_add, hp]

theorem length_presentParity (hs : F.IsCurrent s) :
    (presentParity (frameMarks s) F.dataPkts F.parityPkts).length = parityReceived s := by
  have hrange : s.totalPackets - s.dataPackets = F.parityPkts := by
    rw [hs.totalPackets, hs.dataPackets, SentFrame.totalPkts]
    omega
  rw [parityReceived, hrange, hs.dataPackets, presentParity, List.range'_eq_map_range,
    List.filter_map, List.length_map]
  congr 2
  funext i
  simp [frameMarks]

/-- Outside of the own bytes the reconstruction gives every data packet back. -/
theorem videoReconstruct_rebuilds (hF : F.WellFormed) (hfits : F.FitsLayer c)
    (hs : F.IsCurrent s) (hrs : Tracked s.rs false) (horiginal : Original F s)
    (hmissing : 0 < missingDataPackets s)
    (hparity : missingDataPackets s ≤ parityReceived s) :
    ∃ rs r, videoReconstruct s.rs s.dataPackets s.parityPackets s.totalPackets
        (shardBuffers s 0) (frameMarks s) (fecRecoverySymbolSize c) = (rs, some r) ∧
      r.ret = 0 ∧ ∀ i < F.dataPkts, ∀ t < F.symbolSize, ¬F.IsOwn t →
        r.shards i t = bufOfPacket (F.packets i) t := by
  have hpos := hF.data_pos
  have hpresent := length_presentParity hs
  have hparityPos : 0 < F.parityPkts := by
    have hle := List.length_filter_le (fun i => !frameMarks s (F.dataPkts + i))
      (List.range F.parityPkts)
    rw [List.length_range, ← presentParity, hpresent] at hle
    omega
  have hmax : F.dataPkts + F.parityPkts ≤ dataShardsMax := hfits.total_le
  have hsymbol : fecRecoverySymbolSize c = F.symbolSize := by
    rw [fecRecoverySymbolSize_eq, SentFrame.symbolSize, hfits.packetSize]
  obtain ⟨hnew, hconf⟩ := reedSolomonNew_configured .cleared hpos hparityPos hmax
  have hspec := videoReconstruct_spec hrs F.dataPkts F.parityPkts F.totalPkts
    (shardBuffers s 0) (frameMarks s) F.symbolSize
  rw [if_neg (by simp)] at hspec
  obtain ⟨hown, -⟩ := hspec
  simp only [RecoveryEvent.onOwnContext, hnew, if_true] at hown
  have hlost : (missingData (frameMarks s) F.dataPkts).length = missingDataPackets s := by
    rw [missingDataPackets, hs.dataPackets]
    rfl
  have hrec := reedSolomonReconstruct_spec hconf.decodes (shardBuffers s 0) (frameMarks s)
    F.symbolSize
  rw [if_pos (by rw [hlost, hpresent]; exact hparity)] at hrec
  obtain ⟨shards, hshards, hrecovered⟩ := hrec
  rw [hs.dataPackets, hs.parityPackets, hs.totalPackets, hsymbol]
  refine ⟨_, _, Prod.ext rfl hown, ?_, ?_⟩
  · show (reedSolomonReconstruct _ _ _ _ _).1 = 0
    rw [SentFrame.totalPkts, hshards]
  · intro i hi t ht hnot
    show (reedSolomonReconstruct _ _ _ _ _).2 i t = _
    rw [SentFrame.totalPkts, hshards]
    refine hrecovered.column t ht (fun k => bufOfPacket (F.packets k) t) ?_ ?_ i hi
    · intro k hk hmark
      rw [shardBuffers_of_original horiginal hmark]
    · intro r hr hmark
      obtain ⟨-, hencode⟩ := reedSolomonEncode_spec hconf F.shards F.symbolSize
      rw [shardBuffers_of_original horiginal hmark, hF.parity r hr t ht hnot,
        SentFrame.totalPkts, hencode r hr t ht, hconf.parityBuf]
      apply Finset.sum_congr rfl
      intro k hk
      rw [SentFrame.shards, if_pos (Finset.mem_range.mp hk)]

/-- The packets that came in are the data packets that are there and the parity
packets. -/
theorem networkReceivedCount_eq (hs : F.IsCurrent s) (htotal : F.totalPkts ≤ fecMaxPackets)
    (hmarked : Marked s) :
    networkReceivedCount s + missingDataPackets s = F.dataPkts + parityReceived s := by
  have hin : ∀ i, (s.slots i).isSome → i < s.totalPackets := by
    intro i hsome
    exact hmarked.lt i (by rw [hmarked.slots, hsome])
  have hle : s.dataPackets ≤ s.totalPackets := by
    rw [hs.dataPackets, hs.totalPackets]
    exact Nat.le_add_right _ _
  have hreceived := networkReceived_eq hmarked.slots hin (by rwa [hs.totalPackets])
  rw [networkReceivedCount, hreceived, card_receivedSlots hle, hs.dataPackets]

/-- With as many packets as the frame has data packets, the attempt delivers it. -/
theorem attempt_delivers {env : FecEnv} (hF : F.WellFormed) (hfits : F.FitsLayer env.config)
    (hs : F.IsCurrent s) (hrs : Tracked s.rs false) (horiginal : Original F s)
    (hmarked : Marked s) (henough : F.dataPkts ≤ networkReceivedCount s) :
    ∃ quiet sub, (attemptRecoveryAndSubmit env s).out = s.out ++ quiet ++ [.submitted sub] ∧
      (∀ e ∈ quiet, e.isQuiet) ∧ F.DeliveredBy sub := by
  have hbounds := fecConfiguredPacketSize_bounds env.config
  have hsize := hfits.packetSize
  have htotal := hfits.total_le
  have hpos := hF.data_pos
  have hle : F.dataPkts ≤ F.totalPkts := Nat.le_add_right _ _
  have hcount := networkReceivedCount_eq hs htotal hmarked
  have hsubmit : ∀ t : Fec, F.IsCurrent t → t.out = s.out ++ [.recoveryClean true] →
      (∀ i < F.dataPkts, ∃ p, t.slots i = some p ∧ F.Carries i p) →
      ∃ quiet sub, (submitFramePackets env t).out = s.out ++ quiet ++ [.submitted sub] ∧
        (∀ e ∈ quiet, e.isQuiet) ∧ F.DeliveredBy sub := by
    intro t ht hout hslots
    obtain ⟨sub, hsub, hdelivered⟩ := submitFramePackets_delivers env hF (by omega) htotal
      ht hslots
    refine ⟨[.recoveryClean true, .prepare t.currentFrame], sub, ?_, ?_, hdelivered⟩
    · rw [hsub, hout]
      simp only [List.append_assoc, List.cons_append, List.nil_append]
    · simp [FecEvent.isQuiet]
  rw [attemptRecoveryAndSubmit, if_neg (by rw [hs.numFecBlocks]; omega), attemptSingleBlock,
    hs.dataPackets, hs.totalPackets]
  rw [if_neg (by omega)]
  split
  · rename_i hnone
    refine hsubmit ((s.setCounters 0 0).emit (.recoveryClean true))
      (hs.of_same ((SameFrame.setCounters s 0 0).trans (.emit _ _))) rfl ?_
    intro i hi
    have hfilled := filled_of_missing_eq_zero (by rw [hs.numFecBlocks]; omega) hnone
    rw [Filled, if_neg (by rw [hs.numFecBlocks]; omega), hs.dataPackets] at hfilled
    obtain ⟨p, hp⟩ := Option.isSome_iff_exists.mp (hfilled i hi)
    obtain ⟨-, rfl⟩ := horiginal i p hp
    exact ⟨_, hp, hF.carries hi⟩
  · rename_i hsome
    rw [if_neg (by rw [hmarked.count]; omega)]
    have hparity : missingDataPackets s ≤ parityReceived s := by omega
    have hparity' : ¬parityReceived (s.setCounters 0 0) < missingDataPackets s := by
      show ¬parityReceived s < _
      omega
    simp only
    rw [if_neg hparity', reconstructAndSubmit]
    have hzero : F.IsCurrent (s.setCounters 0 0) := hs.of_same (.setCounters s 0 0)
    obtain ⟨rs, r, hresult, hret, hrebuilt⟩ := videoReconstruct_rebuilds hF hfits hzero hrs
      horiginal (Nat.pos_of_ne_zero hsome) hparity
    rw [hresult, finishFrame, if_pos hret]
    have hany : ∃ j, (s.slots j).isSome := by
      have hcard : (networkReceived s).Nonempty := by
        rw [← Finset.card_pos]
        exact Nat.lt_of_lt_of_le hpos henough
      obtain ⟨j, hj⟩ := hcard
      rw [mem_networkReceived, hmarked.slots] at hj
      exact ⟨j, hj.2⟩
    have hq := requeueFrame_refilled (s := (s.setCounters 0 0).setRs rs) hF hfits
      (hzero.of_same (.setRs _ rs)) (horiginal.inSlot hF (by omega)) hany hrebuilt
    have hmarks : frameMarks ((s.setCounters 0 0).setRs rs) =
        frameMarks (s.setCounters 0 0) := rfl
    rw [hmarks] at hq
    rw [if_neg (by simp [hq.valid])]
    apply hsubmit _ (((hzero.of_same (.setRs _ rs)).of_same hq.same).of_same (.emit _ _))
    · show _ ++ _ = _
      rw [hq.out]
      rfl
    · intro i hi
      obtain ⟨p, hp⟩ := Option.isSome_iff_exists.mp (hq.filled i hi)
      exact ⟨p, hp, (hq.inSlot i p hp).carries hi⟩

end MoonlightPsp.RtpFec

import Mathlib.Data.Finset.Card
import MoonlightPsp.RtpFec.Steps

/-!
# The FEC layer: collecting a frame

As long as the packets of a frame agree on how it is cut into packets, the
counts of the layer say which data packets are there, and the frame is submitted
with the last one.
-/

namespace MoonlightPsp.RtpFec

open Loops ReedSolomon

/-- How a frame is cut into packets: the data packets of each block, and, if
there is one block only, the number of all packets and the sequence number of the
first one.  Every data packet has a slot. -/
structure FrameShape where
  blocks : ℕ
  data : ℕ → ℕ
  total : ℕ
  firstSeq : UInt16
  blocks_pos : 0 < blocks
  data_pos : ∀ b < blocks, 0 < data b
  fits : ∀ b < blocks, data b ≤ slotsPerBlock blocks

namespace FrameShape

/-- The block of a packet. -/
def block (F : FrameShape) (h : FecHeader) : ℕ :=
  if F.blocks > 1 then h.fecBlockNum else 0

/-- The header of a packet of the frame. -/
structure Has (F : FrameShape) (h : FecHeader) : Prop where
  blocks : h.multiFecTotal = F.blocks
  block_lt : F.block h < F.blocks
  data : h.dataPkts = F.data (F.block h)
  index_lt : h.fecIndex < slotsPerBlock F.blocks
  numbered : F.blocks = 1 → h.totalPkts = F.total ∧
    h.seq = F.firstSeq + UInt16.ofNat h.fecIndex

/-- The slot of a packet. -/
def slot (F : FrameShape) (b i : ℕ) : ℕ := b * slotsPerBlock F.blocks + i

theorem slot_inj {F : FrameShape} {b i b' i' : ℕ}
    (hi : i < slotsPerBlock F.blocks) (hi' : i' < slotsPerBlock F.blocks)
    (h : F.slot b i = F.slot b' i') : b = b' ∧ i = i' := by
  have hpos : 0 < slotsPerBlock F.blocks := Nat.zero_lt_of_lt hi
  have hdiv : ∀ c j, j < slotsPerBlock F.blocks →
      F.slot c j / slotsPerBlock F.blocks = c := by
    intro c j hj
    rw [slot, Nat.mul_comm, Nat.mul_add_div hpos, Nat.div_eq_of_lt hj,
      Nat.add_zero]
  have hb : b = b' := by rw [← hdiv b i hi, ← hdiv b' i' hi', h]
  subst hb
  exact ⟨rfl, Nat.add_left_cancel h⟩

/-- The data packets of a block that are there. -/
def stored (F : FrameShape) (s : Fec) (b : ℕ) : Finset ℕ :=
  (Finset.range (F.data b)).filter fun i => (s.slots (F.slot b i)).isSome

/-- All data packets of the frame are there. -/
def Complete (F : FrameShape) (s : Fec) : Prop :=
  ∀ b < F.blocks, ∀ i < F.data b, (s.slots (F.slot b i)).isSome

theorem card_stored_ge_iff {F : FrameShape} {s : Fec} {b : ℕ} :
    F.data b ≤ (F.stored s b).card ↔
      ∀ i < F.data b, (s.slots (F.slot b i)).isSome := by
  have hle : (F.stored s b).card ≤ F.data b := by
    simpa [stored] using Finset.card_filter_le (Finset.range (F.data b)) _
  have heq : (F.stored s b).card = F.data b ↔
      ∀ i < F.data b, (s.slots (F.slot b i)).isSome := by
    have h := Finset.card_filter_eq_iff (s := Finset.range (F.data b))
      (p := fun i => (s.slots (F.slot b i)).isSome = true)
    rw [Finset.card_range] at h
    simpa [stored] using h
  rw [← heq]
  omega

end FrameShape

/-- The layer collects an open frame of this shape. -/
structure Collecting (F : FrameShape) (s : Fec) : Prop where
  shaped : Shaped s
  hold : SlotsHold s
  blocks : s.numFecBlocks = F.blocks
  single : F.blocks = 1 → s.dataPackets = F.data 0 ∧
    s.totalPackets = F.total ∧ s.lowestSeq = F.firstSeq ∧
      s.receivedDataCount = (F.stored s 0).card
  multi : 1 < F.blocks → ∀ b < F.blocks,
    (s.fecBlocks b).receivedDataCount = (F.stored s b).card ∧
      if (s.fecBlocks b).seen then
        (s.fecBlocks b).dataPackets = F.data b ∧
          0 < (s.fecBlocks b).totalPackets
      else F.stored s b = ∅
  network : ∀ i, s.slots i = none → s.receivedFromNetwork i = false

variable {F : FrameShape} {s : Fec}

/-- The layer finds the frame ready exactly when it is complete. -/
theorem Collecting.ready_iff (hs : Collecting F s) :
    frameReady s = true ↔ F.Complete s := by
  have hpos := F.blocks_pos
  rw [frameReady]
  by_cases hone : F.blocks = 1
  · obtain ⟨hdata, -, -, hcount⟩ := hs.single hone
    rw [if_pos (by rw [hs.blocks, hone]), decide_eq_true_eq, hdata, hcount,
      ge_iff_le, F.card_stored_ge_iff, FrameShape.Complete, hone]
    simp
  · have hmany : 1 < F.blocks := by omega
    rw [if_neg (by rw [hs.blocks]; omega), List.all_eq_true]
    constructor
    · intro hall b hb
      have h := hall b (List.mem_range.mpr (hs.blocks ▸ hb))
      rw [Bool.and_eq_true, decide_eq_true_eq] at h
      obtain ⟨hcount, hseen⟩ := hs.multi hmany b hb
      rw [if_pos h.1] at hseen
      rw [← F.card_stored_ge_iff, ← hcount, ← hseen.1]
      exact h.2
    · intro hall b hb
      rw [List.mem_range, hs.blocks] at hb
      have hstored := F.card_stored_ge_iff.mpr (hall b hb)
      obtain ⟨hcount, hseen⟩ := hs.multi hmany b hb
      split at hseen
      · rename_i hyes
        rw [Bool.and_eq_true, decide_eq_true_eq, hcount, hseen.1]
        exact ⟨hyes, hstored⟩
      · rw [hseen, Finset.card_empty] at hstored
        have := F.data_pos b hb
        omega

/-! ## Submitting a complete frame -/

theorem submitSlots_of_complete (env : FecEnv) (hall : F.Complete s) :
    ∃ sub, (submitSlots env s).out = s.out ++ [.submitted sub] ∧
      sub.frame = s.currentFrame := by
  rw [submitSlots]
  split
  · exact ⟨_, rfl, rfl⟩
  · rename_i hnum
    have hsof : (s.slots 0).isSome := by
      have hzero := hall 0 F.blocks_pos 0 (F.data_pos 0 F.blocks_pos)
      rwa [FrameShape.slot, Nat.zero_mul] at hzero
    rw [if_neg]
    · exact ⟨_, rfl, rfl⟩
    · rintro ⟨hnone, -⟩
      rw [Option.isNone_iff_eq_none] at hnone
      rw [hnone] at hsof
      exact Bool.noConfusion hsof

/-- Nothing has to be recovered in a block whose data packets are there. -/
theorem recoverBlock_of_complete (c : FecConfig) (hs : Collecting F s)
    (hmany : 1 < F.blocks) (hall : F.Complete s) {b : ℕ}
    (hb : b < F.blocks) : recoverBlock c s b = (.ready, s) := by
  obtain ⟨hcount, hseen⟩ := hs.multi hmany b hb
  have hstored := F.card_stored_ge_iff.mpr (hall b hb)
  have hpos := F.data_pos b hb
  split at hseen
  · rename_i hyes
    obtain ⟨hdata, htotal⟩ := hseen
    have hmissing : blockMissing s (s.fecBlocks b) = 0 := by
      rw [blockMissing, List.length_eq_zero_iff, List.filter_eq_nil_iff]
      intro i hi
      rw [List.mem_range, hdata] at hi
      have hsome := hall b hb i (by omega)
      have hslot : (s.fecBlocks b).baseSlot + i = F.slot b i := by
        rw [hs.shaped.base, hs.blocks, FrameShape.slot]
      rw [hslot]
      cases hsl : s.slots (F.slot b i) with
      | none => simp [hsl] at hsome
      | some packet => simp
    rw [recoverBlock, if_neg, if_pos hmissing]
    rintro (hno | hzero)
    · simp [hyes] at hno
    · omega
  · rw [hseen, Finset.card_empty] at hstored
    omega

theorem scanBlocks_of_complete (c : FecConfig) (hs : Collecting F s)
    (hmany : 1 < F.blocks) (hall : F.Complete s) :
    scanBlocks c s = ⟨s, false, false⟩ := by
  rw [scanBlocks]
  refine fold_invariant (fun _ (r : BlockScan) => r = ⟨s, false, false⟩) rfl ?_
  rintro b hb r rfl
  rw [scanBlock, recoverBlock_of_complete c hs hmany hall (hs.blocks ▸ hb)]
  rfl

theorem missing_of_complete (hs : Collecting F s) (hone : F.blocks = 1)
    (hall : F.Complete s) : missingDataPackets s = 0 := by
  rw [missingDataPackets, List.length_eq_zero_iff, List.filter_eq_nil_iff]
  intro i hi
  rw [List.mem_range, (hs.single hone).1] at hi
  have hsome := hall 0 F.blocks_pos i hi
  rw [FrameShape.slot, Nat.zero_mul, Nat.zero_add] at hsome
  cases hsl : s.slots i with
  | none => simp [hsl] at hsome
  | some packet => simp

/-- An attempt at a complete frame submits it. -/
theorem attempt_of_complete (env : FecEnv) (hs : Collecting F s)
    (hall : F.Complete s) :
    ∃ new sub, (attemptRecoveryAndSubmit env s).out = s.out ++ new ∧
      .submitted sub ∈ new ∧ sub.frame = s.currentFrame := by
  have hsubmit (t : Fec) (hsame : SameFrame s t) (hslots : t.slots = s.slots)
      {l : List FecEvent} (hout : t.out = s.out ++ l) :
      ∃ new sub, (submitFramePackets env t).out = s.out ++ new ∧
        .submitted sub ∈ new ∧ sub.frame = s.currentFrame := by
    have hall' : F.Complete (t.emit (.prepare t.currentFrame)) := by
      rw [FrameShape.Complete, show (t.emit (.prepare t.currentFrame)).slots =
        s.slots from hslots]
      exact hall
    obtain ⟨sub, hsub, hframe⟩ := submitSlots_of_complete env hall'
    refine ⟨l ++ [.prepare t.currentFrame] ++ [.submitted sub], sub, ?_,
      by simp, hframe.trans hsame.currentFrame⟩
    rw [submitFramePackets, hsub, Fec.emit, hout]
    simp only [List.append_assoc]
  have hpos := F.blocks_pos
  rw [attemptRecoveryAndSubmit]
  by_cases hone : F.blocks = 1
  · rw [if_neg (by rw [hs.blocks]; omega), attemptSingleBlock]
    have hdata := hs.shaped.data_pos
    have hle := hs.shaped.data_le
    have htotal := hs.shaped.total_le
    rw [if_neg (by omega), if_pos (missing_of_complete hs hone hall)]
    exact hsubmit _ ((SameFrame.setCounters s 0 0).trans (.emit _ _)) rfl rfl
  · have hmany : 1 < F.blocks := by omega
    rw [if_pos (by rw [hs.blocks]; exact hmany),
      attemptMultiBlockRecoveryAndSubmit,
      scanBlocks_of_complete env.config hs hmany hall]
    rw [if_neg (by simp)]
    exact hsubmit _ ((SameFrame.setCounters s 0 _).trans (.emit _ _)) rfl rfl

/-! ## Putting a packet into its slot -/

theorem stored_eq_empty {b : ℕ} (hslots : ∀ i, s.slots i = none) :
    F.stored s b = ∅ := by
  simp [FrameShape.stored, hslots]

variable {packet : Packet} {h : FecHeader}

theorem FrameShape.block_of_single (hone : F.blocks = 1) (h : FecHeader) :
    F.block h = 0 := by
  rw [FrameShape.block, if_neg (by omega)]

theorem FrameShape.block_of_multi (hmany : 1 < F.blocks) (h : FecHeader) :
    F.block h = h.fecBlockNum := by
  rw [FrameShape.block, if_pos hmany]

/-- The first packet of the frame opens it. -/
theorem collecting_openFrame (hh : Taken packet h) (hF : F.Has h) (s : Fec) :
    Collecting F (openFrame s h) := by
  have hnum : (openFrame s h).numFecBlocks = F.blocks := by
    have hle := hh.blocks_le
    have hblocks := hF.blocks
    simp only [openFrame]
    omega
  have hempty : ∀ i, (openFrame s h).slots i = none := fun _ => rfl
  refine ⟨shaped_openFrame hh s, fun i p hp => ?_, hnum, fun hone => ?_,
    fun hmany b _ => ?_, fun _ _ => rfl⟩
  · exact absurd ((hempty i).symm.trans hp) (by simp)
  · obtain ⟨htotal, hseq⟩ := hF.numbered hone
    have hdata := hF.data
    rw [F.block_of_single hone] at hdata
    refine ⟨hdata, htotal, ?_, ?_⟩
    · simp only [openFrame, hseq]
      grind
    · rw [stored_eq_empty hempty]
      rfl
  · have hblank : (openFrame s h).fecBlocks b =
        ⟨0, 0, 0, 0, 0, b * slotsPerBlock F.blocks, slotsPerBlock F.blocks,
          false⟩ := by
      rw [← hnum]
      simp only [openFrame, newBlocks]
      rw [if_neg]
      rintro ⟨hnum', -⟩
      simp only [openFrame] at hnum
      omega
    rw [hblank, stored_eq_empty hempty]
    exact ⟨rfl, rfl⟩

/-- The first packet of a block registers it. -/
theorem Collecting.register (hs : Collecting F s) (hh : Taken packet h)
    (hF : F.Has h) : Collecting F (registerBlock s h) ∧
      (1 < F.blocks →
        ((registerBlock s h).fecBlocks h.fecBlockNum).seen = true) := by
  rw [registerBlock]
  split
  · rename_i hnew
    have hmany : 1 < F.blocks := hs.blocks ▸ hnew.1
    refine ⟨⟨?_, hs.hold, hs.blocks, fun hone => ?_, fun _ b hb => ?_,
      hs.network⟩, fun _ => ?_⟩
    · have hshaped := shaped_registerBlock hs.shaped hh.data_le
      rwa [registerBlock, if_pos hnew] at hshaped
    · omega
    · by_cases hblock : b = h.fecBlockNum
      · subst hblock
        obtain ⟨-, hseen⟩ := hs.multi hmany _ hb
        rw [if_neg (by simpa using hnew.2)] at hseen
        have hpos := hh.data_pos
        have hle := hh.data_le
        have hdata := hF.data
        rw [F.block_of_multi hmany] at hdata
        have hstored : F.stored s h.fecBlockNum = ∅ := hseen
        simp only [Function.update_self]
        refine ⟨?_, ?_⟩
        · rw [← Finset.card_empty, ← hstored]
          rfl
        · rw [if_true]
          exact ⟨hdata, by omega⟩
      · simp only [Function.update_of_ne hblock]
        exact hs.multi hmany b hb
    · simp
  · rename_i hold
    refine ⟨hs, fun hmany => ?_⟩
    simp only [not_and, Bool.not_eq_true, Bool.not_eq_false'] at hold
    exact hold (hs.blocks ▸ hmany)

/-- Every packet of the frame has its slot. -/
theorem Collecting.slotIndex_eq (hs : Collecting F s) (hh : Taken packet h)
    (hF : F.Has h) :
    slotIndex s h = some (F.slot (F.block h) h.fecIndex) ∧
      F.slot (F.block h) h.fecIndex < fecMaxPackets := by
  have hpos := F.blocks_pos
  have hlt := hh.index_lt
  have htotal := hh.total_le
  by_cases hone : F.blocks = 1
  · obtain ⟨htotal', hseq⟩ := hF.numbered hone
    obtain ⟨-, hsize, hfirst, -⟩ := hs.single hone
    have hslot : F.slot (F.block h) h.fecIndex = h.fecIndex := by
      rw [F.block_of_single hone, FrameShape.slot, Nat.zero_mul, Nat.zero_add]
    have hindex : (h.seq - s.lowestSeq).toNat = h.fecIndex := by
      have hback : F.firstSeq + UInt16.ofNat h.fecIndex - F.firstSeq =
          UInt16.ofNat h.fecIndex := by grind
      rw [hfirst, hseq, hback, UInt16.toNat_ofNat_of_lt']
      simp only [fecMaxPackets, UInt16.size] at htotal ⊢
      omega
    have hroom : h.fecIndex < fecMaxPackets := by omega
    rw [hslot, slotIndex]
    simp only [hindex]
    rw [if_neg (by rw [hs.blocks]; omega), if_neg (by omega)]
    exact ⟨Option.filter_eq_some_iff.mpr ⟨rfl, by simpa using hroom⟩, hroom⟩
  · have hmany : 1 < F.blocks := by omega
    have hblock := hF.block_lt
    rw [F.block_of_multi hmany] at hblock ⊢
    have hmax := hs.shaped.max h.fecBlockNum
    have hbase := hs.shaped.base h.fecBlockNum
    rw [hs.blocks] at hmax hbase
    have hroom := hs.shaped.slot_lt (hs.blocks ▸ hblock)
      (hmax.symm ▸ hF.index_lt)
    have hroom : F.slot h.fecBlockNum h.fecIndex < fecMaxPackets := by
      rwa [hbase] at hroom
    rw [slotIndex]
    simp only
    rw [if_pos (by rw [hs.blocks]; exact hmany), hmax,
      if_neg (Nat.not_le.mpr hF.index_lt), hbase]
    exact ⟨Option.filter_eq_some_iff.mpr ⟨rfl, by simpa using hroom⟩, hroom⟩

/-- What a packet in a new slot adds to the counts. -/
theorem storePacket_counts {index : ℕ} (packet : Packet)
    (hnone : ¬(s.slots index).isSome)
    (hnetwork : s.receivedFromNetwork index = false)
    (hlt : index < fecMaxPackets) (h : FecHeader) :
    let t := storePacket s h index packet
    t.receivedDataCount =
        s.receivedDataCount + (isDataPacket s h index).toNat ∧
      t.receivedFromNetwork =
        Function.update s.receivedFromNetwork index true ∧
      ∀ b, (t.fecBlocks b).totalPackets = (s.fecBlocks b).totalPackets ∧
        (t.fecBlocks b).receivedDataCount =
          (s.fecBlocks b).receivedDataCount +
            (decide (1 < s.numFecBlocks ∧ b = h.fecBlockNum ∧
              h.fecIndex < (s.fecBlocks b).dataPackets)).toNat := by
  have hmark : ¬(index ≥ fecMaxPackets ∨
      (fillSlot s index packet).receivedFromNetwork index = true) := by
    rintro (hge | hyes)
    · omega
    · rw [show (fillSlot s index packet).receivedFromNetwork index =
        s.receivedFromNetwork index from rfl, hnetwork] at hyes
      exact Bool.noConfusion hyes
  have hdata : isDataPacket (fillSlot s index packet) h index =
      isDataPacket s h index := rfl
  rw [storePacket, if_neg hnone]
  simp only
  rw [markFramePacketReceived, if_neg hmark, hdata, countForBlock]
  split
  · rename_i hmany
    have hmany : 1 < s.numFecBlocks := hmany
    refine ⟨rfl, rfl, fun b => ?_⟩
    by_cases hb : b = h.fecBlockNum
    · subst hb
      simp only [countForFrame, fillSlot, Function.update_self, hmany,
        true_and]
      congr
    · simp [countForFrame, fillSlot, hb]
  · rename_i hsingle
    have hsingle : ¬1 < s.numFecBlocks := hsingle
    refine ⟨rfl, rfl, fun b => ?_⟩
    simp [countForFrame, fillSlot, hsingle]

/-- A packet in a new slot is one more of the data packets of its block. -/
theorem card_stored_update {t : Fec} {b i c : ℕ}
    (hi : i < slotsPerBlock F.blocks) (hc : c < F.blocks)
    (hnone : ¬(s.slots (F.slot b i)).isSome)
    (hslots : t.slots = Function.update s.slots (F.slot b i) (some packet)) :
    (F.stored t c).card =
      (F.stored s c).card + (decide (c = b ∧ i < F.data b)).toNat := by
  have hsame (hne : ¬(c = b ∧ i < F.data b)) :
      F.stored t c = F.stored s c := by
    refine Finset.filter_congr fun j hj => ?_
    have hlt := (Finset.mem_range.mp hj).trans_le (F.fits c hc)
    rw [hslots, Function.update_of_ne]
    intro heq
    obtain ⟨rfl, rfl⟩ := F.slot_inj hlt hi heq
    exact hne ⟨rfl, Finset.mem_range.mp hj⟩
  by_cases hnew : c = b ∧ i < F.data b
  · obtain ⟨rfl, hdata⟩ := hnew
    have hinsert : F.stored t c = insert i (F.stored s c) := by
      ext j
      simp only [FrameShape.stored, Finset.mem_insert, Finset.mem_filter,
        Finset.mem_range, hslots]
      by_cases hj : j = i
      · subst hj
        simp [hdata]
      · simp only [hj, false_or]
        refine and_congr_right fun hlt => ?_
        rw [Function.update_of_ne]
        exact fun heq => hj
          (F.slot_inj (hlt.trans_le (F.fits c hc)) hi heq).2
    have hfresh : i ∉ F.stored s c := fun hmem =>
      hnone (Finset.mem_filter.mp hmem).2
    rw [hinsert, Finset.card_insert_of_notMem hfresh,
      decide_eq_true ⟨rfl, hdata⟩]
    rfl
  · rw [hsame hnew, decide_eq_false hnew]
    rfl

/-- Collecting goes on with the packet in its slot. -/
theorem Collecting.store (hs : Collecting F s) (hh : Taken packet h)
    (hF : F.Has h) (hseen : 1 < F.blocks →
      (s.fecBlocks h.fecBlockNum).seen = true) :
    Collecting F (storePacket s h (F.slot (F.block h) h.fecIndex) packet) := by
  by_cases hsome : (s.slots (F.slot (F.block h) h.fecIndex)).isSome
  · rwa [storePacket_of_isSome h packet hsome]
  have hlt := (hs.slotIndex_eq hh hF).2
  have hnetwork : s.receivedFromNetwork (F.slot (F.block h) h.fecIndex) =
      false := by
    refine hs.network _ ?_
    rwa [Bool.not_eq_true, Option.isSome_eq_false_iff,
      Option.isNone_iff_eq_none] at hsome
  obtain ⟨hsizes, hslots, -, -⟩ := storePacket_of_isNone h packet hsome
  obtain ⟨hdata, hmarked, hblocks⟩ :=
    storePacket_counts packet hsome hnetwork hlt h
  have hcard (c : ℕ) (hc : c < F.blocks) :=
    card_stored_update hF.index_lt hc hsome hslots
  refine ⟨hs.shaped.of_sizes hsizes, fun i p hp => ?_,
    hsizes.numFecBlocks.trans hs.blocks, fun hone => ?_,
    fun hmany c hc => ?_, fun i hi => ?_⟩
  · rw [hslots] at hp
    by_cases hi : i = F.slot (F.block h) h.fecIndex
    · subst hi
      rw [Function.update_self] at hp
      obtain rfl := Option.some.inj hp
      have hpos := (parseFecHeader_spec hh.parse).1
      rw [List.length_take, maxPktSize]
      omega
    · rw [Function.update_of_ne hi] at hp
      exact hs.hold i p hp
  · obtain ⟨hsize, htotal, hfirst, hcount⟩ := hs.single hone
    refine ⟨hsizes.dataPackets.trans hsize, hsizes.totalPackets.trans htotal,
      hsizes.lowestSeq.trans hfirst, ?_⟩
    have hblock := F.block_of_single hone h
    rw [hdata, hcard 0 F.blocks_pos, hcount, isDataPacket,
      if_neg (by rw [hs.blocks]; omega), hblock, hsize, FrameShape.slot,
      Nat.zero_mul, Nat.zero_add]
    simp
  · obtain ⟨hcount, hregistered⟩ := hs.multi hmany c hc
    obtain ⟨htotal, hdata'⟩ := hblocks c
    obtain ⟨hsize, -, -, hsame⟩ := hsizes.blocks c
    rw [F.block_of_multi hmany] at hcard hsame hsize hdata' htotal ⊢
    rw [hdata', hcard c hc, hcount, hsize, hsame, htotal]
    split at hregistered
    · rename_i hyes
      rw [if_pos hyes, hs.blocks, hregistered.1]
      refine ⟨?_, rfl, hregistered.2⟩
      by_cases hb : c = h.fecBlockNum
      · subst hb
        simp [hmany]
      · simp [hb]
    · rename_i hno
      have hb : c ≠ h.fecBlockNum := by
        rintro rfl
        exact hno (hseen hmany)
      have hempty := hcard c hc
      rw [hregistered, Finset.card_empty] at hempty
      rw [if_neg hno]
      refine ⟨by simp [hb], ?_⟩
      rw [← Finset.card_eq_zero, hempty]
      simp [hb]
  · rw [hslots] at hi
    rw [hmarked]
    by_cases heq : i = F.slot (F.block h) h.fecIndex
    · subst heq
      simp at hi
    · rw [Function.update_of_ne heq] at hi ⊢
      exact hs.network i hi

/-- A packet of the frame either completes it, and the frame is submitted, or is
kept in its slot. -/
theorem Collecting.place (env : FecEnv) (hs : Collecting F s)
    (hh : Taken packet h) (hF : F.Has h) (hopen : s.frameSubmitted = false) :
    let t := (placePacket env s h packet).2
    (t.frameSubmitted = true ∧ ∃ new sub, t.out = s.out ++ new ∧
      .submitted sub ∈ new ∧ sub.frame = s.currentFrame) ∨
    (t.frameSubmitted = false ∧ Collecting F t ∧ ¬F.Complete t ∧
      (∀ i, (s.slots i).isSome → (t.slots i).isSome) ∧
        (t.slots (F.slot (F.block h) h.fecIndex)).isSome) := by
  obtain ⟨hregister, hseen⟩ := hs.register hh hF
  obtain ⟨hslot, -⟩ := hregister.slotIndex_eq hh hF
  have hstore := hregister.store hh hF hseen
  have hsizes := storePacket_sizes (registerBlock s h) h
    (F.slot (F.block h) h.fecIndex) packet
  have hkept := storePacket_isSome (registerBlock s h) h
    (F.slot (F.block h) h.fecIndex) packet
  have hregslots : (registerBlock s h).slots = s.slots := by
    rw [registerBlock]
    split <;> rfl
  have hregout : (registerBlock s h).out = s.out := by
    rw [registerBlock]
    split <;> rfl
  have hregcurrent : (registerBlock s h).currentFrame = s.currentFrame := by
    rw [registerBlock]
    split <;> rfl
  have hregopen : (registerBlock s h).frameSubmitted = false := by
    rw [registerBlock]
    split <;> exact hopen
  have hopen' := hsizes.frameSubmitted.trans hregopen
  rw [placePacket, hslot]
  simp only [submitIfReady]
  by_cases hready : frameReady (storePacket (registerBlock s h) h
      (F.slot (F.block h) h.fecIndex) packet) = true
  · rw [if_pos ⟨by rw [hopen']; rfl, hready⟩]
    obtain ⟨new, sub, hout, hsub, hframe⟩ :=
      attempt_of_complete env hstore (hstore.ready_iff.mp hready)
    have hconcluded := attemptRecoveryAndSubmit_concluded env hstore.shaped
      hstore.hold
    have hgrown : ∃ l, (storePacket (registerBlock s h) h
        (F.slot (F.block h) h.fecIndex) packet).out = s.out ++ l := by
      by_cases hsome : ((registerBlock s h).slots
          (F.slot (F.block h) h.fecIndex)).isSome
      · exact ⟨[], by
          rw [storePacket_of_isSome h packet hsome, hregout, List.append_nil]⟩
      · exact ⟨_, by
          rw [(storePacket_of_isNone h packet hsome).2.2.2, hregout]⟩
    obtain ⟨l, hl⟩ := hgrown
    refine .inl ⟨hconcluded.submitted, l ++ new, sub, ?_,
      List.mem_append_right l hsub, ?_⟩
    · rw [hout, hl, List.append_assoc]
    · rw [hframe, hsizes.currentFrame, hregcurrent]
  · rw [if_neg fun hgo => hready hgo.2]
    refine .inr ⟨hopen', hstore, fun hall => hready
      (hstore.ready_iff.mpr hall), fun i hi => ?_, hkept⟩
    rw [← hregslots] at hi
    by_cases hsome : ((registerBlock s h).slots
        (F.slot (F.block h) h.fecIndex)).isSome
    · rwa [storePacket_of_isSome h packet hsome]
    · rw [(storePacket_of_isNone h packet hsome).2.1]
      by_cases heq : i = F.slot (F.block h) h.fecIndex
      · subst heq
        simp
      · rwa [Function.update_of_ne heq]

end MoonlightPsp.RtpFec

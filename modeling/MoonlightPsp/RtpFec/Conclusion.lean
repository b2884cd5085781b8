import Mathlib.Tactic.Common
import MoonlightPsp.Lib.Loops
import MoonlightPsp.RtpFec.AddPacket

/-!
# The FEC layer: how a frame is concluded

Whatever way a frame ends, its identity, its counts and the deferred queue stay
as they are, and it is either submitted or dropped, once.  A submission is
always of the data packets that have a slot.
-/

namespace MoonlightPsp.RtpFec

open Loops ReedSolomon

/-! ## What stays -/

/-- Two states of the same frame. -/
structure SameFrame (s s' : Fec) : Prop where
  currentFrame : s'.currentFrame = s.currentFrame
  lowestSeq : s'.lowestSeq = s.lowestSeq
  dataPackets : s'.dataPackets = s.dataPackets
  parityPackets : s'.parityPackets = s.parityPackets
  totalPackets : s'.totalPackets = s.totalPackets
  receivedFromNetwork : s'.receivedFromNetwork = s.receivedFromNetwork
  receivedCount : s'.receivedCount = s.receivedCount
  receivedDataCount : s'.receivedDataCount = s.receivedDataCount
  receivedParityCount : s'.receivedParityCount = s.receivedParityCount
  numFecBlocks : s'.numFecBlocks = s.numFecBlocks
  fecBlocks : s'.fecBlocks = s.fecBlocks
  deferred : s'.deferred = s.deferred

theorem SameFrame.refl (s : Fec) : SameFrame s s :=
  ⟨rfl, rfl, rfl, rfl, rfl, rfl, rfl, rfl, rfl, rfl, rfl, rfl⟩

theorem SameFrame.trans {s t u : Fec} (hst : SameFrame s t)
    (htu : SameFrame t u) : SameFrame s u where
  currentFrame := htu.currentFrame.trans hst.currentFrame
  lowestSeq := htu.lowestSeq.trans hst.lowestSeq
  dataPackets := htu.dataPackets.trans hst.dataPackets
  parityPackets := htu.parityPackets.trans hst.parityPackets
  totalPackets := htu.totalPackets.trans hst.totalPackets
  receivedFromNetwork := htu.receivedFromNetwork.trans hst.receivedFromNetwork
  receivedCount := htu.receivedCount.trans hst.receivedCount
  receivedDataCount := htu.receivedDataCount.trans hst.receivedDataCount
  receivedParityCount := htu.receivedParityCount.trans hst.receivedParityCount
  numFecBlocks := htu.numFecBlocks.trans hst.numFecBlocks
  fecBlocks := htu.fecBlocks.trans hst.fecBlocks
  deferred := htu.deferred.trans hst.deferred

theorem SameFrame.emit (s : Fec) (e : FecEvent) : SameFrame s (s.emit e) :=
  ⟨rfl, rfl, rfl, rfl, rfl, rfl, rfl, rfl, rfl, rfl, rfl, rfl⟩

theorem SameFrame.setRs (s : Fec) (rs : SharedRs) : SameFrame s (s.setRs rs) :=
  ⟨rfl, rfl, rfl, rfl, rfl, rfl, rfl, rfl, rfl, rfl, rfl, rfl⟩

theorem SameFrame.setCounters (s : Fec) (m : Int32) (n : UInt32) :
    SameFrame s (s.setCounters m n) :=
  ⟨rfl, rfl, rfl, rfl, rfl, rfl, rfl, rfl, rfl, rfl, rfl, rfl⟩

theorem SameFrame.clearSlot (s : Fec) (i : ℕ) : SameFrame s (s.clearSlot i) :=
  ⟨rfl, rfl, rfl, rfl, rfl, rfl, rfl, rfl, rfl, rfl, rfl, rfl⟩

/-- The packets in the slots are not empty. -/
def SlotsHold (s : Fec) : Prop :=
  ∀ i p, s.slots i = some p → 0 < p.length

theorem SlotsHold.clearSlot {s : Fec} (hs : SlotsHold s) (i : ℕ) :
    SlotsHold (s.clearSlot i) := by
  intro j p hp
  by_cases h : j = i
  · subst h
    simp [Fec.clearSlot] at hp
  · simp only [Fec.clearSlot, Function.update_of_ne h] at hp
    exact hs j p hp

/-! ## Rebuilt packets -/

@[simp] theorem length_writeLe32 (p : Packet) (off : ℕ) (v : UInt32) :
    (writeLe32 p off v).length = p.length := by
  simp [writeLe32]

@[simp] theorem length_writeBe16 (p : Packet) (off : ℕ) (v : UInt16) :
    (writeBe16 p off v).length = p.length := by
  simp [writeBe16]

@[simp] theorem length_copyBytes (dst src : Packet) (off n : ℕ) :
    (copyBytes dst src off n).length = dst.length :=
  fold_invariant (fun _ (p : Packet) => p.length = dst.length) rfl
    fun i _ p hp => by simp [hp]

@[simp] theorem length_packetOfBuf (buf : Buf) (size : ℕ) :
    (packetOfBuf buf size).length = size := by
  simp [packetOfBuf]

@[simp] theorem length_fecPatchRecoveredPacketHeader (s : Fec)
    (slot blockNum lastBlockNum : ℕ) (dst : Packet) :
    (fecPatchRecoveredPacketHeader s slot blockNum lastBlockNum dst).length =
      dst.length := by
  simp only [fecPatchRecoveredPacketHeader]
  split
  · rfl
  · split
    · rfl
    · split <;> simp

theorem fecRecoverySymbolSize_ge (c : FecConfig) :
    28 ≤ fecRecoverySymbolSize c := by
  simp only [fecRecoverySymbolSize]
  omega

theorem fecRecoveredDataLen_pos (c : FecConfig) (packet : Packet)
    {receiveSize : ℕ} (h : 28 ≤ receiveSize) :
    0 < fecRecoveredDataLen c packet receiveSize := by
  simp only [fecRecoveredDataLen, maxPktSize]
  split <;> omega

/-- A requeued packet only fills its slot. -/
theorem requeueRecovered_spec (c : FecConfig) (s : Fec)
    (slot blockNum lastBlockNum : ℕ) (rebuilt : Buf) :
    let s' := requeueRecovered c s slot blockNum lastBlockNum rebuilt
      (fecRecoverySymbolSize c)
    SameFrame s s' ∧ s'.out = s.out ∧ (s'.slots slot).isSome ∧
      (∀ i, i ≠ slot → s'.slots i = s.slots i) ∧
      (SlotsHold s → SlotsHold s') := by
  have hsize := fecRecoverySymbolSize_ge c
  refine ⟨⟨rfl, rfl, rfl, rfl, rfl, rfl, rfl, rfl, rfl, rfl, rfl, rfl⟩, rfl, ?_,
    ?_, ?_⟩
  · simp [requeueRecovered]
  · intro i hi
    simp [requeueRecovered, Function.update_of_ne hi]
  · intro hs i p hp
    by_cases hi : i = slot
    · subst hi
      simp only [requeueRecovered, Function.update_self, Option.some.injEq] at hp
      rw [← hp, List.length_take]
      have hlen := fecRecoveredDataLen_pos c
        (fecPatchRecoveredPacketHeader s i blockNum lastBlockNum
          (packetOfBuf rebuilt (fecRecoverySymbolSize c))) hsize
      simp only [length_fecPatchRecoveredPacketHeader, length_packetOfBuf]
      omega
    · simp only [requeueRecovered, Function.update_of_ne hi] at hp
      exact hs i p hp

/-! ## Fates -/

/-- Events that are not about what becomes of a frame. -/
def FecEvent.isQuiet : FecEvent → Bool
  | .recoveryClean _ => true
  | .prepare _ => true
  | _ => false

/-- `g_fec_recovery_clean` after these events. -/
def recoveryCleanAfter (events : List FecEvent) : Bool :=
  events.foldl (fun clean e =>
    match e with
    | .recoveryClean b => b
    | _ => clean) false

/-- The places of the data packets of a frame, in block order and then in index
order. -/
def allPlaces (blockSizes : List ℕ) : List (ℕ × ℕ) :=
  blockSizes.zipIdx.flatMap fun x => (List.range x.1).map fun i => (x.2, i)

/-- The places that have a slot. -/
def slottedPlaces (blockSizes : List ℕ) : List (ℕ × ℕ) :=
  allPlaces (blockSizes.map fun n => min n (slotsPerBlock blockSizes.length))

/-- The places of the packets of a submission. -/
def Submission.places (sub : Submission) : List (ℕ × ℕ) :=
  sub.shards.map fun x => (x.block, x.index)

/-- The slot of a place. -/
def placeSlot (blockSizes : List ℕ) (block index : ℕ) : ℕ :=
  block * slotsPerBlock blockSizes.length + index

/-- The packets in the slots stay where they are. -/
def KeepsPackets (s t : Fec) : Prop :=
  ∀ i p, s.slots i = some p → t.slots i = some p

/-- The frame of `s` ends with this event. -/
inductive EndsWith (s : Fec) (clean : Bool) : FecEvent → Prop where
  | dropped (reason : DropReason) (missing : ℕ) (requests : List Request) :
      EndsWith s clean (.dropped s.currentFrame reason missing requests)
  | submitted (sub : Submission) (hframe : sub.frame = s.currentFrame)
      (hsizes : sub.blockSizes = blockSizes s) (hclean : clean = true)
      (hplaces : sub.places = slottedPlaces (blockSizes s))
      (hfirst : sub.firstSeq = s.lowestSeq)
      (hpackets : ∀ x ∈ sub.shards, ∀ p,
        s.slots (placeSlot (blockSizes s) x.block x.index) = some p →
          x.packet = patchFrameId p s.currentFrame) :
      EndsWith s clean (.submitted sub)

/-- `s'` is `s` with its frame concluded. -/
structure Concluded (s s' : Fec) : Prop where
  same : SameFrame s s'
  submitted : s'.frameSubmitted = true
  hold : SlotsHold s'
  out : ∃ quiet fate, s'.out = s.out ++ quiet ++ [fate] ∧
    (∀ e ∈ quiet, e.isQuiet) ∧
    EndsWith s (recoveryCleanAfter (s.out ++ quiet)) fate

/-- `t` differs from `s` by quiet events, besides rebuilt packets and counters. -/
structure Quietly (s t : Fec) : Prop where
  same : SameFrame s t
  keeps : KeepsPackets s t
  out : ∃ quiet, t.out = s.out ++ quiet ∧ ∀ e ∈ quiet, e.isQuiet

theorem SameFrame.blockSizes {s t : Fec} (h : SameFrame s t) :
    blockSizes t = blockSizes s := by
  simp only [RtpFec.blockSizes, h.numFecBlocks, h.fecBlocks, h.dataPackets]

theorem EndsWith.of_same {s t : Fec} (h : SameFrame s t)
    (hkeeps : KeepsPackets s t) {clean : Bool} {e : FecEvent}
    (he : EndsWith t clean e) : EndsWith s clean e := by
  cases he with
  | dropped reason missing requests =>
      rw [h.currentFrame]
      exact .dropped reason missing requests
  | submitted sub hframe hsizes hclean hplaces hfirst hpackets =>
      rw [h.blockSizes] at hsizes hplaces hpackets
      rw [h.currentFrame] at hpackets
      exact .submitted sub (hframe.trans h.currentFrame) hsizes hclean hplaces
        (hfirst.trans h.lowestSeq) fun x hx p hp => hpackets x hx p (hkeeps _ p hp)

theorem KeepsPackets.refl (s : Fec) : KeepsPackets s s := fun _ _ hp => hp

theorem KeepsPackets.trans {s t u : Fec} (hst : KeepsPackets s t)
    (htu : KeepsPackets t u) : KeepsPackets s u :=
  fun i p hp => htu i p (hst i p hp)

theorem KeepsPackets.isSome {s t : Fec} (h : KeepsPackets s t) {i : ℕ}
    (hi : (s.slots i).isSome) : (t.slots i).isSome := by
  obtain ⟨p, hp⟩ := Option.isSome_iff_exists.mp hi
  rw [h i p hp]
  rfl

theorem Quietly.of_same {s t : Fec} (hsame : SameFrame s t)
    (hkeeps : KeepsPackets s t) (hout : t.out = s.out) : Quietly s t :=
  ⟨hsame, hkeeps, [], by rw [hout, List.append_nil], by simp⟩

/-- A quiet event after what leaves the events alone. -/
theorem Quietly.emit {s t : Fec} (hsame : SameFrame s t)
    (hkeeps : KeepsPackets s t) (hout : t.out = s.out) {e : FecEvent}
    (he : e.isQuiet) : Quietly s (t.emit e) :=
  ⟨hsame.trans (.emit t e), hkeeps, [e], by rw [Fec.emit, hout],
    by simpa using he⟩

theorem Concluded.after {s t u : Fec} (hst : Quietly s t)
    (htu : Concluded t u) : Concluded s u := by
  obtain ⟨before, hbefore, hq⟩ := hst.out
  obtain ⟨quiet, fate, hout, hquiet, hend⟩ := htu.out
  refine ⟨hst.same.trans htu.same, htu.submitted, htu.hold, before ++ quiet,
    fate, ?_, ?_, ?_⟩
  · rw [hout, hbefore]
    simp only [List.append_assoc]
  · intro e he
    rcases List.mem_append.mp he with he | he
    · exact hq e he
    · exact hquiet e he
  · rw [hbefore, List.append_assoc] at hend
    exact hend.of_same hst.same hst.keeps

/-! ## Dropping -/

theorem dropCurrentFrameStrict_concluded (env : FecEnv) {s : Fec}
    (hs : SlotsHold s) (reason : DropReason) (missing : ℕ)
    (before : List Request) :
    Concluded s (dropCurrentFrameStrict env s reason missing before) where
  same := ⟨rfl, rfl, rfl, rfl, rfl, rfl, rfl, rfl, rfl, rfl, rfl, rfl⟩
  submitted := rfl
  hold := hs
  out := ⟨[.recoveryClean false], _, by rw [List.append_assoc]; rfl,
    by simp [FecEvent.isQuiet], .dropped reason missing _⟩

theorem dropUnrecoverable_concluded (env : FecEnv) {s : Fec}
    (hs : SlotsHold s) (missing : ℕ) :
    Concluded s (dropUnrecoverable env s missing) where
  same := ⟨rfl, rfl, rfl, rfl, rfl, rfl, rfl, rfl, rfl, rfl, rfl, rfl⟩
  submitted := rfl
  hold := hs
  out := ⟨[], _, by rw [List.append_nil]; rfl, by simp,
    .dropped .unrecoverable missing _⟩

/-! ## Submitting -/

/-- The sizes of an opened frame and the places of its blocks. -/
structure Shaped (s : Fec) : Prop where
  data_pos : 0 < s.dataPackets
  data_le : s.dataPackets ≤ s.totalPackets
  total_le : s.totalPackets ≤ fecMaxPackets
  blocks_pos : 0 < s.numFecBlocks
  blocks_le : s.numFecBlocks ≤ maxFecMultiBlocks
  base : ∀ b, (s.fecBlocks b).baseSlot = b * slotsPerBlock s.numFecBlocks
  max : ∀ b, (s.fecBlocks b).maxSlots = slotsPerBlock s.numFecBlocks
  block_le : ∀ b, (s.fecBlocks b).dataPackets ≤ (s.fecBlocks b).totalPackets

theorem Shaped.of_same {s t : Fec} (h : SameFrame s t) (hs : Shaped s) :
    Shaped t := by
  constructor <;>
    simp only [h.dataPackets, h.totalPackets, h.numFecBlocks, h.fecBlocks]
  · exact hs.data_pos
  · exact hs.data_le
  · exact hs.total_le
  · exact hs.blocks_pos
  · exact hs.blocks_le
  · exact hs.base
  · exact hs.max
  · exact hs.block_le

/-- Every data packet that has a slot is in it. -/
def Filled (s : Fec) : Prop :=
  if s.numFecBlocks > 1 then
    ∀ b < s.numFecBlocks, (s.fecBlocks b).seen ∧
      ∀ i < min (s.fecBlocks b).dataPackets (s.fecBlocks b).maxSlots,
        (s.slots ((s.fecBlocks b).baseSlot + i)).isSome
  else ∀ i < s.dataPackets, (s.slots i).isSome

/-- The slots of a block are slots of the frame. -/
theorem Shaped.slot_lt {s : Fec} (hs : Shaped s) {b i : ℕ}
    (hb : b < s.numFecBlocks) (hi : i < (s.fecBlocks b).maxSlots) :
    (s.fecBlocks b).baseSlot + i < fecMaxPackets := by
  rw [hs.max] at hi
  rw [hs.base]
  have hroom : s.numFecBlocks * slotsPerBlock s.numFecBlocks ≤
      fecMaxPackets := by
    simp only [slotsPerBlock]
    split
    · exact Nat.mul_div_le _ _
    · have : s.numFecBlocks ≤ 1 := by omega
      exact (Nat.mul_le_mul_right _ this).trans (by simp)
  calc b * slotsPerBlock s.numFecBlocks + i
      < (b + 1) * slotsPerBlock s.numFecBlocks := by
        rw [Nat.add_mul]
        omega
    _ ≤ s.numFecBlocks * slotsPerBlock s.numFecBlocks :=
        Nat.mul_le_mul_right _ hb
    _ ≤ fecMaxPackets := hroom

theorem shardAt_of_isSome {s : Fec} (hs : SlotsHold s) (block index : ℕ)
    {slot : ℕ} (hslot : slot < fecMaxPackets)
    (hsome : (s.slots slot).isSome) :
    ∃ packet, shardAt s block index slot = some ⟨block, index, packet⟩ := by
  obtain ⟨p, hp⟩ := Option.isSome_iff_exists.mp hsome
  have hlen := hs slot p hp
  exact ⟨patchFrameId p s.currentFrame, by simp [shardAt, hslot, hp, hlen]⟩

/-- The places of shards that are all there. -/
theorem places_filterMap_shardAt {s : Fec} (hs : SlotsHold s) (block n : ℕ)
    (slot : ℕ → ℕ) (hslot : ∀ i < n, slot i < fecMaxPackets)
    (hsome : ∀ i < n, (s.slots (slot i)).isSome) :
    (((List.range n).filterMap fun i => shardAt s block i (slot i)).map
      fun x => (x.block, x.index)) =
      (List.range n).map fun i => (block, i) := by
  induction n with
  | zero => rfl
  | succ n ih =>
      obtain ⟨packet, hp⟩ := shardAt_of_isSome hs block n (hslot n (by omega))
        (hsome n (by omega))
      rw [List.range_succ, List.filterMap_append, List.map_append,
        List.map_append, ih (fun i hi => hslot i (by omega))
          (fun i hi => hsome i (by omega))]
      simp [hp]

theorem allPlaces_map_range (n : ℕ) (size : ℕ → ℕ) :
    allPlaces ((List.range n).map size) =
      (List.range n).flatMap fun b => (List.range (size b)).map fun i =>
        (b, i) := by
  have hzip : ((List.range n).map size).zipIdx =
      (List.range n).map fun b => (size b, b) := by
    apply List.ext_getElem <;> simp
  rw [allPlaces, hzip, List.flatMap_map]

/-- A shard is the packet of its slot, with the frame index written into it. -/
theorem packet_of_shardAt {s : Fec} {block index slot : ℕ} {x : Shard}
    (hx : shardAt s block index slot = some x) :
    x.block = block ∧ x.index = index ∧
      ∀ p, s.slots slot = some p → x.packet = patchFrameId p s.currentFrame := by
  rw [shardAt] at hx
  split at hx
  · split at hx
    · rename_i packet hslot
      split at hx
      · obtain rfl := Option.some.inj hx
        exact ⟨rfl, rfl, fun p hp => by rw [Option.some.inj (hslot.symm.trans hp)]⟩
      · exact nomatch hx
    · exact nomatch hx
  · exact nomatch hx

theorem handOver_concluded {s : Fec} (hs : SlotsHold s)
    (hclean : recoveryCleanAfter s.out = true) {shards : List Shard}
    (nextSeq : Option UInt16)
    (hplaces : shards.map (fun x => (x.block, x.index)) =
      slottedPlaces (blockSizes s))
    (hpackets : ∀ x ∈ shards,
      shardAt s x.block x.index
        (placeSlot (blockSizes s) x.block x.index) = some x) :
    Concluded s (handOver s shards nextSeq) where
  same := ⟨rfl, rfl, rfl, rfl, rfl, rfl, rfl, rfl, rfl, rfl, rfl, rfl⟩
  submitted := rfl
  hold := hs
  out := ⟨[], _, by rw [List.append_nil]; rfl, by simp,
    .submitted ⟨s.currentFrame, s.lowestSeq, blockSizes s, shards, nextSeq⟩ rfl
      rfl (by rwa [List.append_nil]) hplaces rfl fun x hx =>
        (packet_of_shardAt (hpackets x hx)).2.2⟩

theorem submitSlots_concluded (env : FecEnv) {s : Fec} (hshape : Shaped s)
    (hs : SlotsHold s) (hfilled : Filled s)
    (hclean : recoveryCleanAfter s.out = true) :
    Concluded s (submitSlots env s) := by
  rw [submitSlots]
  by_cases hnum : s.numFecBlocks > 1
  · rw [Filled, if_pos hnum] at hfilled
    rw [if_pos hnum]
    have hsizes : blockSizes s =
        (List.range s.numFecBlocks).map fun b =>
          (s.fecBlocks b).dataPackets :=
      if_pos hnum
    refine handOver_concluded hs hclean none ?_ fun x hx => ?_
    swap
    · obtain ⟨b, -, hx⟩ := List.mem_flatMap.mp hx
      rw [blockShards] at hx
      split at hx
      · obtain ⟨i, -, hx⟩ := List.mem_filterMap.mp hx
        obtain ⟨hblock, hindex, -⟩ := packet_of_shardAt hx
        rw [hshape.base] at hx
        rw [hblock, hindex, placeSlot, hsizes, List.length_map,
          List.length_range, hx]
      · exact absurd hx List.not_mem_nil
    rw [hsizes, slottedPlaces, List.length_map, List.length_range,
      List.map_map, allPlaces_map_range, List.map_flatMap]
    refine List.flatMap_congr fun b hb => ?_
    have hb := List.mem_range.mp hb
    obtain ⟨hseen, hsome⟩ := hfilled b hb
    rw [blockShards, if_pos hseen]
    simp only [Function.comp_apply, ← hshape.max b]
    exact places_filterMap_shardAt hs b _
      (fun i => (s.fecBlocks b).baseSlot + i)
      (fun i hi => hshape.slot_lt hb (by omega)) hsome
  · rw [Filled, if_neg hnum] at hfilled
    have hdata := hshape.data_pos
    have hle := hshape.data_le.trans hshape.total_le
    have hsof : ¬((s.slots 0).isNone ∧ s.dataPackets > 1) := by
      rintro ⟨hnone, -⟩
      have hsome := hfilled 0 hdata
      rw [Option.isNone_iff_eq_none.mp hnone] at hsome
      exact Bool.noConfusion hsome
    rw [if_neg hnum, if_neg hsof]
    have hsizes : blockSizes s = [s.dataPackets] := if_neg hnum
    refine handOver_concluded hs hclean _ ?_ fun x hx => ?_
    swap
    · obtain ⟨i, -, hx⟩ := List.mem_filterMap.mp hx
      obtain ⟨hblock, hindex, -⟩ := packet_of_shardAt hx
      rw [hblock, hindex, placeSlot, Nat.zero_mul, Nat.zero_add, hx]
    have hmin : min s.dataPackets fecMaxPackets = s.dataPackets := by omega
    have hplaces := places_filterMap_shardAt hs 0 s.dataPackets id
      (fun i hi => by simp only [id]; omega) hfilled
    rw [hsizes]
    simpa [slottedPlaces, slotsPerBlock, allPlaces, hmin] using hplaces

/-- Handing on a frame whose slots are filled submits it. -/
theorem submitFramePackets_concluded (env : FecEnv) {s : Fec}
    (hshape : Shaped s) (hs : SlotsHold s) (hfilled : Filled s)
    (hclean : recoveryCleanAfter s.out = true) :
    Concluded s (submitFramePackets env s) := by
  refine Concluded.after (.emit (.refl s) (.refl s) rfl rfl)
    (submitSlots_concluded env (hshape.of_same (.emit s _)) hs hfilled ?_)
  simpa [recoveryCleanAfter, Fec.emit] using hclean

/-! ## Recovering -/

/-- A loop that requeues rebuilt packets fills the slots it takes up. -/
structure Requeued (s s' : Fec) (filled : ℕ → Prop) : Prop where
  same : SameFrame s s'
  out : s'.out = s.out
  hold : SlotsHold s → SlotsHold s'
  keeps : KeepsPackets s s'
  fills : ∀ i, filled i → (s'.slots i).isSome

theorem requeueBlock_requeued (c : FecConfig) (s : Fec) (b : ℕ)
    (blk : FecBlock) (marks : ℕ → Bool) (rebuilt : ℕ → Buf)
    (hmarks : ∀ i < min blk.dataPackets blk.maxSlots,
      blk.baseSlot + i < fecMaxPackets → marks i →
        s.slots (blk.baseSlot + i) = none) :
    Requeued s (requeueBlock c s b blk marks rebuilt (fecRecoverySymbolSize c))
      fun slot => ∃ i < min blk.dataPackets blk.maxSlots,
        slot = blk.baseSlot + i ∧ slot < fecMaxPackets ∧ marks i := by
  rw [requeueBlock]
  refine fold_invariant (fun n t => Requeued s t fun slot => ∃ i < n,
    slot = blk.baseSlot + i ∧ slot < fecMaxPackets ∧ marks i) ?_ ?_
  · exact ⟨SameFrame.refl s, rfl, id, .refl s, fun _ ⟨i, hi, _⟩ =>
      absurd hi (by omega)⟩
  · intro n hn t ht
    split
    · rename_i hmark
      obtain ⟨hsame, hout, hsome, hother, hhold⟩ := requeueRecovered_spec c t
        (blk.baseSlot + n) b (t.numFecBlocks - 1) (rebuilt n)
      have hkeep : ∀ i, (t.slots i).isSome → ((requeueRecovered c t
          (blk.baseSlot + n) b (t.numFecBlocks - 1) (rebuilt n)
          (fecRecoverySymbolSize c)).slots i).isSome := by
        intro i hi
        by_cases h : i = blk.baseSlot + n
        · rw [h]
          exact hsome
        · rw [hother i h]
          exact hi
      have hempty := hmarks n hn hmark.1 hmark.2
      refine ⟨ht.same.trans hsame, hout.trans ht.out, hhold ∘ ht.hold,
        fun i p hp => ?_, ?_⟩
      · rw [hother i fun h => by rw [h, hempty] at hp; exact nomatch hp]
        exact ht.keeps i p hp
      rintro slot ⟨i, hi, rfl, hlt, hm⟩
      by_cases h : i = n
      · subst h
        exact hsome
      · exact hkeep _ (ht.fills _ ⟨i, by omega, rfl, hlt, hm⟩)
    · rename_i hmark
      refine ⟨ht.same, ht.out, ht.hold, ht.keeps, ?_⟩
      rintro slot ⟨i, hi, rfl, hlt, hm⟩
      have hne : i ≠ n := by
        rintro rfl
        exact hmark ⟨hlt, hm⟩
      exact ht.fills _ ⟨i, by omega, rfl, hlt, hm⟩

/-- A block that is ready has its data packets in their slots. -/
def BlockFilled (s : Fec) (b : ℕ) : Prop :=
  (s.fecBlocks b).seen ∧
    ∀ i < min (s.fecBlocks b).dataPackets (s.fecBlocks b).maxSlots,
      (s.slots ((s.fecBlocks b).baseSlot + i)).isSome

theorem Requeued.refl (s : Fec) : Requeued s s fun _ => False :=
  ⟨SameFrame.refl s, rfl, id, .refl s, fun _ h => h.elim⟩

theorem Requeued.setRs (s : Fec) (rs : SharedRs) :
    Requeued s (s.setRs rs) fun _ => False :=
  ⟨.setRs s rs, rfl, id, .refl s, fun _ h => h.elim⟩

/-- A block that the reconstruction makes ready is filled. -/
theorem finishBlock_spec (c : FecConfig) {s : Fec} (hshape : Shaped s) {b : ℕ}
    (hb : b < s.numFecBlocks) (hseen : (s.fecBlocks b).seen)
    (o : SharedRs × Option Reconstruction) :
    let r := finishBlock c s b (s.fecBlocks b) o
    Requeued s r.2 (fun _ => False) ∧ (r.1 = .ready → BlockFilled r.2 b) := by
  rcases o with ⟨rs, _ | r⟩
  · exact ⟨Requeued.setRs s rs, fun h => nomatch h⟩
  simp only [finishBlock]
  split
  · have hle := hshape.block_le b
    have hmarks : ∀ i < min (s.fecBlocks b).dataPackets (s.fecBlocks b).maxSlots,
        (s.fecBlocks b).baseSlot + i < fecMaxPackets →
          blockMarks s (s.fecBlocks b) i →
            s.slots ((s.fecBlocks b).baseSlot + i) = none := by
      intro i hi hslot hmark
      by_contra hsome
      rw [blockMarks, Bool.not_eq_true', decide_eq_false_iff_not] at hmark
      exact hmark ⟨by omega, hslot, Option.isSome_iff_ne_none.mpr hsome⟩
    have hq := requeueBlock_requeued c (s.setRs rs) b (s.fecBlocks b)
      (blockMarks s (s.fecBlocks b)) r.shards hmarks
    have hsame := (SameFrame.setRs s rs).trans hq.same
    refine ⟨⟨hsame, hq.out, hq.hold, hq.keeps, fun _ h => h.elim⟩,
      fun _ => ⟨?_, ?_⟩⟩
    · rw [hsame.fecBlocks]
      exact hseen
    · rw [hsame.fecBlocks]
      intro i hi
      have hslot := hshape.slot_lt hb (lt_of_lt_of_le hi (min_le_right _ _))
      by_cases hsome : (s.slots ((s.fecBlocks b).baseSlot + i)).isSome
      · exact hq.keeps.isSome hsome
      · exact hq.fills _ ⟨i, hi, rfl, hslot, by simp [blockMarks, hsome]⟩
  · exact ⟨Requeued.setRs s rs, fun h => nomatch h⟩

/-- A block is recovered in its own slots, and the others keep what they
have. -/
theorem recoverBlock_spec (c : FecConfig) {s : Fec} (hshape : Shaped s) {b : ℕ}
    (hb : b < s.numFecBlocks) :
    Requeued s (recoverBlock c s b).2 (fun _ => False) ∧
      ((recoverBlock c s b).1 = .ready →
        BlockFilled (recoverBlock c s b).2 b) := by
  rw [recoverBlock]
  split
  · exact ⟨Requeued.refl s, fun h => nomatch h⟩
  rename_i hseen
  have hseen : (s.fecBlocks b).seen := by simp_all
  split
  · rename_i hmissing
    refine ⟨Requeued.refl s, fun _ => ⟨hseen, fun i hi => ?_⟩⟩
    by_contra hnone
    have hslot := hshape.slot_lt hb (lt_of_lt_of_le hi (min_le_right _ _))
    have hmem : i ∈ (List.range (min (s.fecBlocks b).dataPackets
        (s.fecBlocks b).maxSlots)).filter fun i =>
          decide ((s.fecBlocks b).baseSlot + i < fecMaxPackets) &&
            (s.slots ((s.fecBlocks b).baseSlot + i)).isNone := by
      simp_all
    rw [blockMissing, List.length_eq_zero_iff] at hmissing
    rw [hmissing] at hmem
    exact List.not_mem_nil hmem
  · split
    · exact ⟨Requeued.refl s, fun h => nomatch h⟩
    · exact finishBlock_spec c hshape hb hseen _

/-- After the loop over the blocks, either a block was given up or all of them
are filled. -/
theorem scanBlocks_spec (c : FecConfig) {s : Fec} (hshape : Shaped s) :
    Requeued s (scanBlocks c s).s (fun _ => False) ∧
      (¬((scanBlocks c s).anyUnrecoverable ∨ (scanBlocks c s).anyRsFailed) →
        ∀ b < s.numFecBlocks, BlockFilled (scanBlocks c s).s b) := by
  rw [scanBlocks]
  refine fold_invariant (fun n (r : BlockScan) =>
    Requeued s r.s (fun _ => False) ∧
      (¬(r.anyUnrecoverable ∨ r.anyRsFailed) → ∀ b < n, BlockFilled r.s b))
    ⟨Requeued.refl s, fun _ b hb => absurd hb (by omega)⟩ ?_
  rintro n hn r ⟨hr, hfilled⟩
  obtain ⟨hstep, hready⟩ := recoverBlock_spec c (hshape.of_same hr.same) (b := n)
    (by rwa [hr.same.numFecBlocks])
  refine ⟨⟨hr.same.trans hstep.same, hstep.out.trans hr.out,
    hstep.hold ∘ hr.hold, hr.keeps.trans hstep.keeps, fun _ h => h.elim⟩,
    fun hgood b hb => ?_⟩
  simp only [scanBlock, Bool.or_eq_true, decide_eq_true_eq, not_or] at hgood
  by_cases hbn : b = n
  · subst hbn
    apply hready
    cases hout : (recoverBlock c r.s b).1 with
    | ready => rfl
    | unrecoverable => exact absurd hout hgood.1.2
    | rsFailed => exact absurd hout hgood.2.2
  · obtain ⟨hseen, hsome⟩ := hfilled
      (by simp only [not_or]; exact ⟨hgood.1.1, hgood.2.1⟩) b (by omega)
    constructor
    · simp only [scanBlock, hstep.same.fecBlocks]
      exact hseen
    · simp only [scanBlock, hstep.same.fecBlocks]
      exact fun i hi => hstep.keeps.isSome (hsome i hi)

theorem requeueFrame_spec (c : FecConfig) (s : Fec) (rebuilt : ℕ → Buf) :
    let q := requeueFrame c s (frameMarks s) rebuilt (fecRecoverySymbolSize c)
    SameFrame s q.s ∧ q.s.out = s.out ∧ (SlotsHold s → SlotsHold q.s) ∧
      KeepsPackets s q.s ∧ (q.invalid = false →
        ∀ i < s.dataPackets, frameMarks s i → (q.s.slots i).isSome) := by
  rw [requeueFrame]
  refine fold_invariant (fun n (q : RequeueState) =>
    SameFrame s q.s ∧ q.s.out = s.out ∧ (SlotsHold s → SlotsHold q.s) ∧
      KeepsPackets s q.s ∧ (q.invalid = false →
        ∀ i < n, frameMarks s i → (q.s.slots i).isSome))
    ⟨SameFrame.refl s, rfl, id, .refl s, fun _ i hi => absurd hi (by omega)⟩ ?_
  rintro n hn q ⟨hsame, hout, hhold, hkeeps, hvalid⟩
  obtain ⟨hsame', hout', hsome, hother, hhold'⟩ :=
    requeueRecovered_spec c q.s n 0 0 (rebuilt n)
  rw [requeueOne]
  split
  · rename_i hskip
    refine ⟨hsame, hout, hhold, hkeeps, fun hv i hi hm => ?_⟩
    by_cases h : i = n
    · subst h
      simp_all
    · exact hvalid hv i (by omega) hm
  rename_i hgo
  have hv : q.invalid = false := by simp_all
  have hempty : s.slots n = none := by
    rw [not_or, Bool.not_eq_true', Bool.not_eq_false] at hgo
    exact Option.isNone_iff_eq_none.mp hgo.2
  have hne : ∀ i p, s.slots i = some p → i ≠ n := by
    rintro i p hp rfl
    rw [hempty] at hp
    exact nomatch hp
  have hkeep : ∀ i, (q.s.slots i).isSome → ((requeueRecovered c q.s n 0 0
      (rebuilt n) (fecRecoverySymbolSize c)).slots i).isSome := by
    intro i hi
    by_cases h : i = n
    · rw [h]
      exact hsome
    · rw [hother i h]
      exact hi
  simp only
  split
  · refine ⟨hsame.trans hsame', hout'.trans hout, hhold' ∘ hhold,
      fun i p hp => ?_, fun _ i hi hm => ?_⟩
    · rw [hother i (hne i p hp)]
      exact hkeeps i p hp
    by_cases h : i = n
    · rw [h]
      exact hsome
    · exact hkeep i (hvalid hv i (by omega) hm)
  · refine ⟨(hsame.trans hsame').trans (.clearSlot _ n), hout'.trans hout,
      fun hs => (hhold' (hhold hs)).clearSlot n, fun i p hp => ?_,
      fun h => nomatch h⟩
    simp only [Fec.clearSlot, Function.update_of_ne (hne i p hp)]
    rw [hother i (hne i p hp)]
    exact hkeeps i p hp

/-! ## Any way -/

theorem recoveryCleanAfter_append_clean (events : List FecEvent) (clean : Bool) :
    recoveryCleanAfter (events ++ [.recoveryClean clean]) = clean := by
  simp [recoveryCleanAfter]

theorem attemptMultiBlock_concluded (env : FecEnv) {s : Fec}
    (hshape : Shaped s) (hs : SlotsHold s) (hnum : s.numFecBlocks > 1) :
    Concluded s (attemptMultiBlockRecoveryAndSubmit env s) := by
  obtain ⟨hscan, hgood⟩ := scanBlocks_spec env.config hshape
  have hs' := hscan.hold hs
  rw [attemptMultiBlockRecoveryAndSubmit]
  split
  · exact Concluded.after (.of_same hscan.same hscan.keeps hscan.out)
      (dropCurrentFrameStrict_concluded env hs' _ _ _)
  · rename_i hall
    have hfilled := hgood hall
    have hsame := hscan.same.trans
      (.setCounters (scanBlocks env.config s).s 0
        (scanBlocks env.config s).s.consecutiveFrameDrops)
    refine Concluded.after (.emit hsame hscan.keeps hscan.out rfl)
      (submitFramePackets_concluded env
        (hshape.of_same (hsame.trans (.emit _ _))) hs' ?_
        (recoveryCleanAfter_append_clean _ _))
    have hnum' : (scanBlocks env.config s).s.numFecBlocks > 1 := by
      rwa [hscan.same.numFecBlocks]
    rw [Filled]
    refine (if_pos hnum').mpr ?_
    intro b hb
    exact hfilled b (hscan.same.numFecBlocks ▸ hb)

theorem finishFrame_concluded (env : FecEnv) {s : Fec} (hshape : Shaped s)
    (hs : SlotsHold s) (hnum : ¬s.numFecBlocks > 1) (missing : ℕ)
    (o : SharedRs × Option Reconstruction) :
    Concluded s (finishFrame env s missing o) := by
  rcases o with ⟨rs, _ | r⟩
  · refine Concluded.after (.of_same (.setRs s rs) (.refl s) rfl)
      (dropCurrentFrameStrict_concluded env ?_ _ _ _)
    exact hs
  simp only [finishFrame]
  obtain ⟨hsame, hout, hhold, hkeeps, hvalid⟩ := requeueFrame_spec env.config
    (s.setRs rs) r.shards
  have hsame := (SameFrame.setRs s rs).trans hsame
  split
  · split
    · refine Concluded.after
        (.emit (e := .recoveryClean false) hsame hkeeps hout rfl)
        (dropCurrentFrameStrict_concluded env ?_ _ _ _)
      exact hhold hs
    · rename_i hok
      have hfills := hvalid (Bool.eq_false_of_not_eq_true hok)
      refine Concluded.after (.emit hsame hkeeps hout rfl)
        (submitFramePackets_concluded env
          (hshape.of_same (hsame.trans (.emit _ _))) (hhold hs) ?_
          (recoveryCleanAfter_append_clean _ _))
      simp only [Filled, Fec.emit, hsame.numFecBlocks, if_neg hnum,
        hsame.dataPackets]
      intro i hi
      by_cases hsome : (s.slots i).isSome
      · exact hkeeps.isSome hsome
      · exact hfills i hi (by simpa [frameMarks, Fec.setRs] using hsome)
  · refine Concluded.after (.emit (e := .recoveryClean false) (.setRs s rs)
      (.refl s) rfl rfl) (dropCurrentFrameStrict_concluded env ?_ _ _ _)
    exact hs

theorem filled_of_missing_eq_zero {s : Fec} (hnum : ¬s.numFecBlocks > 1)
    (hmissing : missingDataPackets s = 0) : Filled s := by
  rw [Filled, if_neg hnum]
  intro i hi
  rw [missingDataPackets, List.length_eq_zero_iff, List.filter_eq_nil_iff]
    at hmissing
  simpa [Option.isSome_iff_ne_none] using hmissing i (List.mem_range.mpr hi)

theorem attemptSingleBlock_concluded (env : FecEnv) {s : Fec}
    (hshape : Shaped s) (hs : SlotsHold s) (hnum : ¬s.numFecBlocks > 1) :
    Concluded s (attemptSingleBlock env s) := by
  have hdata := hshape.data_pos
  have hle := hshape.data_le
  have htotal := hshape.total_le
  rw [attemptSingleBlock]
  rw [if_neg (by omega)]
  split
  · rename_i hmissing
    exact Concluded.after (.emit (.setCounters s 0 0) (.refl s) rfl rfl)
      (submitFramePackets_concluded env
        (hshape.of_same ((SameFrame.setCounters s 0 0).trans (.emit _ _))) hs
        (filled_of_missing_eq_zero hnum hmissing)
        (recoveryCleanAfter_append_clean _ _))
  · split
    · exact dropUnrecoverable_concluded env hs _
    · have hcounters := SameFrame.setCounters s 0 0
      refine Concluded.after (.of_same hcounters (.refl s) rfl) ?_
      simp only
      split
      · exact dropCurrentFrameStrict_concluded env (s := s.setCounters 0 0) hs
          _ _ _
      · exact finishFrame_concluded env (hshape.of_same hcounters) hs hnum _ _

/-- An attempt concludes the frame. -/
theorem attemptRecoveryAndSubmit_concluded (env : FecEnv) {s : Fec}
    (hshape : Shaped s) (hs : SlotsHold s) :
    Concluded s (attemptRecoveryAndSubmit env s) := by
  rw [attemptRecoveryAndSubmit]
  split
  · exact attemptMultiBlock_concluded env hshape hs ‹_›
  · exact attemptSingleBlock_concluded env hshape hs ‹_›

end MoonlightPsp.RtpFec

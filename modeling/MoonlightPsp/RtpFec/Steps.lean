import Mathlib.Logic.Relation
import MoonlightPsp.RtpFec.Conclusion

/-!
# The FEC layer: a call as small steps

A call concludes frames, opens frames, stores packets and moves packets through
the queue, in an order that depends on the stream.  What holds after each of
these small steps holds after a call and after a run.  The loops in a call end,
since every round shortens the queue.
-/

namespace MoonlightPsp.RtpFec

open ReedSolomon SerialNumber

/-! ## Packets that are taken -/

/-- What the checks establish of a packet that is taken. -/
structure Taken (packet : Packet) (h : FecHeader) : Prop where
  parse : parseFecHeader packet = some h
  data_pos : 0 < h.dataPkts
  data_le : h.dataPkts ≤ h.totalPkts
  total_le : h.totalPkts ≤ fecMaxPackets
  index_lt : h.fecIndex < h.totalPkts
  blocks_pos : 0 < h.multiFecTotal
  blocks_le : h.multiFecTotal ≤ maxFecMultiBlocks
  block_lt : h.fecBlockNum < maxFecMultiBlocks

theorem parseFecHeader_spec {packet : Packet} {h : FecHeader}
    (hp : parseFecHeader packet = some h) :
    0 < packet.length ∧ packetFrameIndex packet = h.frameIndex ∧
      h.totalPkts = h.dataPkts + h.parityPkts ∧ 0 < h.multiFecTotal ∧
      h.multiFecTotal ≤ maxFecMultiBlocks := by
  simp only [parseFecHeader] at hp
  split at hp
  · exact nomatch hp
  rename_i off hoff
  obtain rfl := Option.some.inj hp
  refine ⟨?_, by simp [packetFrameIndex, hoff], rfl, by simp, ?_⟩
  · simp only [rtpNvOffsetFromPacket] at hoff
    by_contra hlen
    rw [if_pos (by omega)] at hoff
    exact nomatch hoff
  · have hbits : ∀ x : UInt8, ((x >>> 6) &&& 0x03).toNat ≤ 3 := by
      intro x
      rw [UInt8.toNat_and]
      exact Nat.and_le_right
    have := hbits (byteAt packet (off + 11))
    simp only [maxFecMultiBlocks]
    omega

/-- Two bits hold the number of the block. -/
theorem fecBlockNum_lt {packet : Packet} {h : FecHeader}
    (hp : parseFecHeader packet = some h) : h.fecBlockNum < maxFecMultiBlocks := by
  rw [parseFecHeader] at hp
  split at hp
  · cases hp
  · rename_i off hoff
    obtain rfl := Option.some.inj hp
    have hbits : ((byteAt packet (off + 11) >>> 4) &&& 0x03).toNat ≤ 3 := by
      rw [UInt8.toNat_and]
      exact Nat.and_le_right
    simp only [maxFecMultiBlocks]
    omega

theorem screenPacket_taken {c : FecConfig} {current : UInt32} {packet : Packet}
    {h : FecHeader} (hs : screenPacket c current packet = .taken h) :
    Taken packet h ∧ h.dataPkts ≤ fecMaxReasonableDataPackets c ∧
      (current ≠ noFrame → 0 ≤ delta h.frameIndex current) := by
  simp only [screenPacket] at hs
  split at hs
  · exact nomatch hs
  rename_i h' hparse
  obtain ⟨-, -, htotal, hpos, hle⟩ := parseFecHeader_spec hparse
  split_ifs at hs with hblock hstale hfar hsize hindex hzero
  obtain rfl := Screened.taken.inj hs
  refine ⟨⟨hparse, ?_, ?_, ?_, ?_, hpos, hle, ?_⟩, ?_, fun hcurrent => ?_⟩
  iterate 6 omega
  · have := not_and.mp hstale hcurrent
    omega

/-! ## Small steps -/

/-- What a call does to the layer, one thing at a time. -/
inductive FecStep : Fec → Fec → Prop where
  | conclude (env : FecEnv) {s : Fec} (hopen : s.frameSubmitted = false)
      (hkept : 0 < s.receivedCount ∨ ∃ i, (s.slots i).isSome) :
      FecStep s (attemptRecoveryAndSubmit env s)
  | enter {s : Fec} {packet : Packet} {h : FecHeader} (hh : Taken packet h)
      (hnew : h.frameIndex ≠ s.currentFrame)
      (hover : s.currentFrame ≠ noFrame → s.frameSubmitted = false →
        s.receivedCount = 0) :
      FecStep s (openFrame s h)
  | register {s : Fec} {packet : Packet} {h : FecHeader}
      (hh : Taken packet h) : FecStep s (registerBlock s h)
  | store {s : Fec} {packet : Packet} {h : FecHeader} {index : ℕ}
      (hh : Taken packet h) (hslot : slotIndex s h = some index) :
      FecStep s (storePacket s h index packet)
  | late {s : Fec} (frame : UInt32) (replayed : Bool) :
      FecStep s (s.emit (.late frame replayed))
  | queue {s : Fec} (deferred : List Packet) :
      FecStep s (s.setDeferred deferred)

/-- No frame was opened yet. -/
structure Blank (s : Fec) : Prop where
  currentFrame : s.currentFrame = noFrame
  dataPackets : s.dataPackets = 0
  totalPackets : s.totalPackets = 0
  receivedCount : s.receivedCount = 0
  numFecBlocks : s.numFecBlocks = 1
  slots : ∀ i, s.slots i = none

/-- The invariant of the layer. -/
structure FecInv (s : Fec) : Prop where
  shape : Blank s ∨ Shaped s
  hold : SlotsHold s
  counted : ∀ i, (s.slots i).isSome → 0 < s.receivedCount

theorem fecInv_initial : FecInv Fec.initial :=
  ⟨.inl ⟨rfl, rfl, rfl, rfl, rfl, fun _ => rfl⟩,
    fun _ p (h : none = some p) => (Option.some_ne_none p h.symm).elim,
    fun _ (h : (none : Option Packet).isSome) => Bool.noConfusion h⟩

theorem FecInv.kept {s : Fec} (hs : FecInv s)
    (hkept : 0 < s.receivedCount ∨ ∃ i, (s.slots i).isSome) :
    0 < s.receivedCount :=
  hkept.elim id fun ⟨i, hi⟩ => hs.counted i hi

theorem FecInv.shaped {s : Fec} (hs : FecInv s)
    (hkept : 0 < s.receivedCount) : Shaped s := by
  rcases hs.shape with hblank | hshape
  · have := hblank.receivedCount
    omega
  · exact hshape

/-- The frame is concluded in a step that concludes it. -/
theorem FecInv.concluded {s : Fec} (hs : FecInv s) (env : FecEnv)
    (hkept : 0 < s.receivedCount ∨ ∃ i, (s.slots i).isSome) :
    Concluded s (attemptRecoveryAndSubmit env s) :=
  attemptRecoveryAndSubmit_concluded env (hs.shaped (hs.kept hkept)) hs.hold

theorem Blank.of_same {s t : Fec} (h : SameFrame s t) (hs : Blank s)
    (hslots : t.slots = s.slots) : Blank t where
  currentFrame := h.currentFrame.trans hs.currentFrame
  dataPackets := h.dataPackets.trans hs.dataPackets
  totalPackets := h.totalPackets.trans hs.totalPackets
  receivedCount := h.receivedCount.trans hs.receivedCount
  numFecBlocks := h.numFecBlocks.trans hs.numFecBlocks
  slots := by rw [hslots]; exact hs.slots

theorem FecInv.of_same {s t : Fec} (hs : FecInv s) (h : SameFrame s t)
    (hslots : t.slots = s.slots) : FecInv t where
  shape := hs.shape.imp (.of_same h · hslots) (.of_same h)
  hold := by
    rw [SlotsHold, hslots]
    exact hs.hold
  counted := by
    rw [hslots, h.receivedCount]
    exact hs.counted

theorem shaped_openFrame {packet : Packet} {h : FecHeader}
    (hh : Taken packet h) (s : Fec) : Shaped (openFrame s h) := by
  have hpos := hh.blocks_pos
  have hle := hh.blocks_le
  refine ⟨hh.data_pos, hh.data_le, hh.total_le, ?_, ?_, ?_, ?_, ?_⟩
  · exact lt_min hpos (by simp [maxFecMultiBlocks])
  · exact min_le_right _ _
  · intro b
    simp only [openFrame, newBlocks]
    split <;> rfl
  · intro b
    simp only [openFrame, newBlocks]
    split <;> rfl
  · intro b
    simp only [openFrame, newBlocks]
    split
    · exact hh.data_le
    · exact Nat.le_refl 0

theorem shaped_registerBlock {s : Fec} (hs : Shaped s) {h : FecHeader}
    (hle : h.dataPkts ≤ h.totalPkts) : Shaped (registerBlock s h) := by
  rw [registerBlock]
  split
  · refine ⟨hs.data_pos, hs.data_le, hs.total_le, hs.blocks_pos, hs.blocks_le,
      fun b => ?_, fun b => ?_, fun b => ?_⟩
    · by_cases hb : b = h.fecBlockNum
      · subst hb
        simp [hs.base]
      · simp [Function.update_of_ne hb, hs.base]
    · by_cases hb : b = h.fecBlockNum
      · subst hb
        simp [hs.max]
      · simp [Function.update_of_ne hb, hs.max]
    · by_cases hb : b = h.fecBlockNum
      · subst hb
        simpa using hle
      · simpa [Function.update_of_ne hb] using hs.block_le b
  · exact hs

/-- What a packet that goes into a slot leaves alone. -/
structure SameSizes (s t : Fec) : Prop where
  currentFrame : t.currentFrame = s.currentFrame
  lowestSeq : t.lowestSeq = s.lowestSeq
  dataPackets : t.dataPackets = s.dataPackets
  totalPackets : t.totalPackets = s.totalPackets
  frameSubmitted : t.frameSubmitted = s.frameSubmitted
  numFecBlocks : t.numFecBlocks = s.numFecBlocks
  deferred : t.deferred = s.deferred
  blocks : ∀ b, (t.fecBlocks b).dataPackets = (s.fecBlocks b).dataPackets ∧
    (t.fecBlocks b).baseSlot = (s.fecBlocks b).baseSlot ∧
    (t.fecBlocks b).maxSlots = (s.fecBlocks b).maxSlots ∧
    (t.fecBlocks b).seen = (s.fecBlocks b).seen
  block_total : ∀ b, (t.fecBlocks b).totalPackets = (s.fecBlocks b).totalPackets

theorem SameSizes.refl (s : Fec) : SameSizes s s :=
  ⟨rfl, rfl, rfl, rfl, rfl, rfl, rfl, fun _ => ⟨rfl, rfl, rfl, rfl⟩, fun _ => rfl⟩

theorem SameSizes.trans {s t u : Fec} (hst : SameSizes s t)
    (htu : SameSizes t u) : SameSizes s u where
  currentFrame := htu.currentFrame.trans hst.currentFrame
  lowestSeq := htu.lowestSeq.trans hst.lowestSeq
  dataPackets := htu.dataPackets.trans hst.dataPackets
  totalPackets := htu.totalPackets.trans hst.totalPackets
  frameSubmitted := htu.frameSubmitted.trans hst.frameSubmitted
  numFecBlocks := htu.numFecBlocks.trans hst.numFecBlocks
  deferred := htu.deferred.trans hst.deferred
  blocks := fun b => ⟨(htu.blocks b).1.trans (hst.blocks b).1,
    (htu.blocks b).2.1.trans (hst.blocks b).2.1,
    (htu.blocks b).2.2.1.trans (hst.blocks b).2.2.1,
    (htu.blocks b).2.2.2.trans (hst.blocks b).2.2.2⟩
  block_total := fun b => (htu.block_total b).trans (hst.block_total b)

theorem Shaped.of_sizes {s t : Fec} (h : SameSizes s t) (hs : Shaped s) :
    Shaped t where
  data_pos := h.dataPackets ▸ hs.data_pos
  data_le := by rw [h.dataPackets, h.totalPackets]; exact hs.data_le
  total_le := h.totalPackets ▸ hs.total_le
  blocks_pos := h.numFecBlocks ▸ hs.blocks_pos
  blocks_le := h.numFecBlocks ▸ hs.blocks_le
  base := fun b => by rw [(h.blocks b).2.1, h.numFecBlocks, hs.base]
  max := fun b => by rw [(h.blocks b).2.2.1, h.numFecBlocks, hs.max]
  block_le := fun b => by
    rw [(h.blocks b).1, h.block_total]
    exact hs.block_le b

theorem fillSlot_sizes (s : Fec) (index : ℕ) (packet : Packet) :
    SameSizes s (fillSlot s index packet) :=
  ⟨rfl, rfl, rfl, rfl, rfl, rfl, rfl, fun _ => ⟨rfl, rfl, rfl, rfl⟩, fun _ => rfl⟩

theorem countForFrame_sizes (s : Fec) (h : FecHeader) (index : ℕ) :
    SameSizes s (countForFrame s h index) :=
  ⟨rfl, rfl, rfl, rfl, rfl, rfl, rfl, fun _ => ⟨rfl, rfl, rfl, rfl⟩, fun _ => rfl⟩

theorem markFramePacketReceived_spec (s : Fec) (index : ℕ) (isData : Bool) :
    let t := markFramePacketReceived s index isData
    SameSizes s t ∧ t.slots = s.slots ∧ t.receivedCount = s.receivedCount ∧
      t.out = s.out ∧ t.fecBlocks = s.fecBlocks := by
  rw [markFramePacketReceived]
  split
  · exact ⟨.refl s, rfl, rfl, rfl, rfl⟩
  · exact ⟨⟨rfl, rfl, rfl, rfl, rfl, rfl, rfl,
      fun _ => ⟨rfl, rfl, rfl, rfl⟩, fun _ => rfl⟩, rfl, rfl, rfl, rfl⟩

theorem countForBlock_spec (s : Fec) (h : FecHeader) :
    let t := countForBlock s h
    SameSizes s t ∧ t.slots = s.slots ∧ t.receivedCount = s.receivedCount ∧
      t.out = s.out := by
  rw [countForBlock]
  split
  · refine ⟨⟨rfl, rfl, rfl, rfl, rfl, rfl, rfl, fun b => ?_, fun b => ?_⟩, rfl,
      rfl, rfl⟩
    · by_cases hb : b = h.fecBlockNum
      · subst hb
        simp
      · simp [Function.update_of_ne hb]
    · by_cases hb : b = h.fecBlockNum
      · subst hb
        simp
      · simp [Function.update_of_ne hb]
  · exact ⟨.refl s, rfl, rfl, rfl⟩

theorem storePacket_of_isSome {s : Fec} (h : FecHeader) {index : ℕ}
    (packet : Packet) (hsome : (s.slots index).isSome) :
    storePacket s h index packet = s := by
  rw [storePacket, if_pos hsome]

theorem storePacket_of_isNone {s : Fec} (h : FecHeader) {index : ℕ}
    (packet : Packet) (hnone : ¬(s.slots index).isSome) :
    let t := storePacket s h index packet
    SameSizes s t ∧
      t.slots =
        Function.update s.slots index (some (packet.take maxPktSize)) ∧
      t.receivedCount = s.receivedCount + 1 ∧
      t.out = s.out ++ [.stored s.currentFrame index h] := by
  rw [storePacket, if_neg hnone]
  simp only
  have hfill := fillSlot_sizes s index packet
  obtain ⟨hmark, hslots, hcount, hout, -⟩ := markFramePacketReceived_spec
    (fillSlot s index packet) index
    (isDataPacket (fillSlot s index packet) h index)
  have hframe := countForFrame_sizes (markFramePacketReceived
    (fillSlot s index packet) index
    (isDataPacket (fillSlot s index packet) h index)) h index
  obtain ⟨hblock, hslots', hcount', hout'⟩ := countForBlock_spec
    (countForFrame (markFramePacketReceived (fillSlot s index packet) index
      (isDataPacket (fillSlot s index packet) h index)) h index) h
  refine ⟨((hfill.trans hmark).trans hframe).trans hblock, ?_, ?_, ?_⟩
  · rw [hslots']
    exact hslots
  · rw [hcount', countForFrame, hcount]
    rfl
  · rw [hout', countForFrame, hout, hmark.currentFrame]
    rfl

/-! ## The invariant -/

theorem fecInv_storePacket {s : Fec} (hs : FecInv s) {packet : Packet}
    {h : FecHeader} {index : ℕ} (hh : Taken packet h)
    (hslot : slotIndex s h = some index) :
    FecInv (storePacket s h index packet) := by
  by_cases hsome : (s.slots index).isSome
  · rwa [storePacket_of_isSome h packet hsome]
  obtain ⟨hsizes, hslots, hcount, -⟩ :=
    storePacket_of_isNone h packet hsome
  have hshape : Shaped s := by
    rcases hs.shape with hblank | hshape
    · simp [slotIndex, hblank.numFecBlocks, hblank.totalPackets] at hslot
    · exact hshape
  refine ⟨.inr (hshape.of_sizes hsizes), fun i p hp => ?_, fun i _ => ?_⟩
  · rw [hslots] at hp
    by_cases hi : i = index
    · subst hi
      rw [Function.update_self] at hp
      obtain rfl := Option.some.inj hp
      have := (parseFecHeader_spec hh.parse).1
      rw [List.length_take, maxPktSize]
      omega
    · rw [Function.update_of_ne hi] at hp
      exact hs.hold i p hp
  · omega

/-- The invariant holds after every small step. -/
theorem fecInv_step {s t : Fec} (hstep : FecStep s t) (hs : FecInv s) :
    FecInv t := by
  cases hstep with
  | conclude env hopen hkept =>
      have hc := hs.concluded env hkept
      have hpos := hs.kept hkept
      exact ⟨.inr ((hs.shaped hpos).of_same hc.same), hc.hold,
        fun i _ => by rwa [hc.same.receivedCount]⟩
  | enter hh hnew hover =>
      exact ⟨.inr (shaped_openFrame hh s), fun _ p (h : none = some p) =>
        (Option.some_ne_none p h.symm).elim,
        fun _ (h : (none : Option Packet).isSome) => Bool.noConfusion h⟩
  | register hh =>
      rename_i packet h
      rcases hs.shape with hblank | hshape
      · rw [registerBlock, if_neg (by simp [hblank.numFecBlocks])]
        exact hs
      · refine ⟨.inr (shaped_registerBlock hshape hh.data_le), ?_, ?_⟩
        · rw [registerBlock]
          split <;> exact hs.hold
        · rw [registerBlock]
          split <;> exact hs.counted
  | store hh hslot => exact fecInv_storePacket hs hh hslot
  | late frame replayed => exact hs.of_same (.emit s _) rfl
  | queue deferred =>
      refine ⟨?_, hs.hold, hs.counted⟩
      rcases hs.shape with hblank | hshape
      · exact .inl ⟨hblank.currentFrame, hblank.dataPackets,
          hblank.totalPackets, hblank.receivedCount, hblank.numFecBlocks,
          hblank.slots⟩
      · exact .inr ⟨hshape.data_pos, hshape.data_le, hshape.total_le,
          hshape.blocks_pos, hshape.blocks_le, hshape.base, hshape.max,
          hshape.block_le⟩

/-- Any number of small steps. -/
def FecSteps : Fec → Fec → Prop := Relation.ReflTransGen FecStep

theorem fecInv_steps {s t : Fec} (hsteps : FecSteps s t) (hs : FecInv s) :
    FecInv t := by
  induction hsteps with
  | refl => exact hs
  | tail _ hstep ih => exact fecInv_step hstep ih

/-! ## A packet as small steps -/

theorem concludeFrame_steps (env : FecEnv) {s : Fec} :
    FecSteps s (concludeFrame env s) := by
  rw [concludeFrame]
  split
  · rename_i hguard
    exact .single (.conclude env (by simpa using hguard.2.1)
      (.inl hguard.2.2))
  · exact .refl

/-- After that, the frame is over. -/
theorem concludeFrame_over (env : FecEnv) {s : Fec} (hs : FecInv s) :
    (concludeFrame env s).currentFrame ≠ noFrame →
      (concludeFrame env s).frameSubmitted = false →
        (concludeFrame env s).receivedCount = 0 := by
  intro hcurrent hopen
  rw [concludeFrame] at *
  split at hopen
  · rename_i hguard
    have := (hs.concluded env (.inl hguard.2.2)).submitted
    rw [hopen] at this
    exact Bool.noConfusion this
  · rename_i hguard
    rw [if_neg hguard] at hcurrent ⊢
    have hcount : ¬s.currentFrame = noFrame → s.receivedCount = 0 := by
      simpa [hopen] using hguard
    exact hcount hcurrent

theorem concludeFrame_currentFrame (env : FecEnv) {s : Fec} (hs : FecInv s) :
    (concludeFrame env s).currentFrame = s.currentFrame := by
  rw [concludeFrame]
  split
  · rename_i hguard
    exact (hs.concluded env (.inl hguard.2.2)).same.currentFrame
  · rfl

theorem enterFrame_steps (env : FecEnv) {s : Fec} (hs : FecInv s)
    {packet : Packet} {h : FecHeader} (hh : Taken packet h) :
    FecSteps s (enterFrame env s h) := by
  rw [enterFrame]
  split
  · rename_i hnew
    refine (concludeFrame_steps env).tail (.enter hh ?_
      (concludeFrame_over env hs))
    rwa [concludeFrame_currentFrame env hs]
  · exact .refl

theorem placePacket_steps (env : FecEnv) {s : Fec} {packet : Packet}
    {h : FecHeader} (hh : Taken packet h) :
    FecSteps s (placePacket env s h packet).2 := by
  have hregister : FecSteps s (registerBlock s h) := .single (.register hh)
  rw [placePacket]
  split
  · exact hregister
  · rename_i index hslot
    have hstore := hregister.tail (.store hh hslot)
    rw [submitIfReady]
    split
    · rename_i hready
      refine hstore.tail (.conclude env (by simpa using hready.1)
        (.inr ⟨index, ?_⟩))
      by_cases hsome : ((registerBlock s h).slots index).isSome
      · rwa [storePacket_of_isSome h packet hsome]
      · rw [(storePacket_of_isNone h packet hsome).2.1]
        simp
    · exact hstore

theorem replayPacket_steps (env : FecEnv) {s : Fec} (hs : FecInv s)
    (packet : Packet) : FecSteps s (replayPacket env s packet).2 := by
  rw [replayPacket]
  split
  · exact .refl
  · exact .single (.late _ _)
  · exact .refl
  · rename_i h hscreen
    have hh := (screenPacket_taken hscreen).1
    exact (enterFrame_steps env hs hh).trans (placePacket_steps env hh)

/-! ## The loops of a call -/

/-- A property that every round of the loop keeps holds after the queue is
drained. -/
theorem drain_invariant {env : FecEnv} (P : Fec → Prop)
    (hdrop : ∀ s, P s → P (dropSubmittedDeferredFramePackets s))
    (hreplay : ∀ s front rest, P s → s.deferred = front :: rest →
      canReplay s front → P (replayPacket env (s.setDeferred rest) front).2)
    {fuel : ℕ} {s t : Fec} (hs : P s)
    (ht : drainDeferredCabacPackets env fuel s = some t) : P t := by
  induction fuel generalizing s with
  | zero => exact nomatch ht
  | succ fuel ih =>
      rw [drainDeferredCabacPackets] at ht
      have hs' := hdrop s hs
      split at ht
      · rwa [← Option.some.inj ht]
      · rename_i front rest hq
        split at ht
        · exact ih (hreplay _ front rest hs' hq ‹_›) ht
        · rwa [← Option.some.inj ht]

theorem concludeFrame_deferred (env : FecEnv) {s : Fec} (hs : FecInv s) :
    (concludeFrame env s).deferred = s.deferred := by
  rw [concludeFrame]
  split
  · rename_i hguard
    exact (hs.concluded env (.inl hguard.2.2)).same.deferred
  · rfl

theorem enterFrame_deferred (env : FecEnv) {s : Fec} (hs : FecInv s)
    (h : FecHeader) : (enterFrame env s h).deferred = s.deferred := by
  rw [enterFrame]
  split
  · exact concludeFrame_deferred env hs
  · rfl

theorem registerBlock_deferred (s : Fec) (h : FecHeader) :
    (registerBlock s h).deferred = s.deferred := by
  rw [registerBlock]
  split <;> rfl

theorem storePacket_sizes (s : Fec) (h : FecHeader) (index : ℕ)
    (packet : Packet) : SameSizes s (storePacket s h index packet) := by
  by_cases hsome : (s.slots index).isSome
  · rw [storePacket_of_isSome h packet hsome]
    exact .refl s
  · exact (storePacket_of_isNone h packet hsome).1

/-- A packet that is stored has its slot taken afterwards. -/
theorem storePacket_isSome (s : Fec) (h : FecHeader) (index : ℕ)
    (packet : Packet) :
    ((storePacket s h index packet).slots index).isSome := by
  by_cases hsome : (s.slots index).isSome
  · rwa [storePacket_of_isSome h packet hsome]
  · rw [(storePacket_of_isNone h packet hsome).2.1]
    simp

theorem placePacket_deferred (env : FecEnv) {s : Fec} (hs : FecInv s)
    {packet : Packet} {h : FecHeader} (hh : Taken packet h) :
    (placePacket env s h packet).2.deferred = s.deferred := by
  have hregister := fecInv_step (.register hh) hs
  rw [placePacket]
  split
  · exact registerBlock_deferred s h
  · rename_i index hslot
    have hstore := fecInv_storePacket hregister hh hslot
    have hsizes := storePacket_sizes (registerBlock s h) h index packet
    rw [submitIfReady]
    split
    · have hkept := storePacket_isSome (registerBlock s h) h index packet
      rw [(hstore.concluded env (.inr ⟨index, hkept⟩)).same.deferred,
        hsizes.deferred, registerBlock_deferred]
    · rw [hsizes.deferred, registerBlock_deferred]

theorem replayPacket_deferred (env : FecEnv) {s : Fec} (hs : FecInv s)
    (packet : Packet) :
    (replayPacket env s packet).2.deferred = s.deferred := by
  rw [replayPacket]
  split
  · rfl
  · rfl
  · rfl
  · rename_i h hscreen
    have hh := (screenPacket_taken hscreen).1
    rw [placePacket_deferred env
      (fecInv_steps (enterFrame_steps env hs hh) hs) hh,
      enterFrame_deferred env hs]

theorem dropSubmitted_length_le (s : Fec) :
    (dropSubmittedDeferredFramePackets s).deferred.length ≤
      s.deferred.length :=
  (List.dropWhile_sublist _).length_le

/-- Every round takes a packet from the queue, so the loop ends. -/
theorem drain_isSome (env : FecEnv) {n : ℕ} {s : Fec} (hs : FecInv s)
    (hfuel : s.deferred.length < n) :
    ∃ t, drainDeferredCabacPackets env n s = some t ∧
      t.deferred.length ≤ s.deferred.length := by
  induction n generalizing s with
  | zero => omega
  | succ n ih =>
      have hdrop := dropSubmitted_length_le s
      have hs' : FecInv (dropSubmittedDeferredFramePackets s) :=
        fecInv_step (.queue _) hs
      rw [drainDeferredCabacPackets]
      split
      · exact ⟨_, rfl, hdrop⟩
      · rename_i front rest hq
        rw [hq, List.length_cons] at hdrop
        split
        · have hqueue := fecInv_step (.queue rest) hs'
          have hlen := replayPacket_deferred env hqueue front
          have hlen : (replayPacket env ((dropSubmittedDeferredFramePackets
              s).setDeferred rest) front).2.deferred.length = rest.length := by
            rw [hlen]
            rfl
          obtain ⟨t, ht, hle⟩ := ih
            (fecInv_steps (replayPacket_steps env hqueue front) hqueue)
            (by omega)
          exact ⟨t, ht, by omega⟩
        · exact ⟨_, rfl, by rw [hq]; simpa using hdrop⟩

/-- When the current frame is submitted, the first round takes a packet. -/
theorem drain_shortens {env : FecEnv} {fuel : ℕ} {s t : Fec} (hs : FecInv s)
    (hfuel : s.deferred.length < fuel) (hsubmitted : s.frameSubmitted = true)
    (hqueue : s.deferred ≠ [])
    (ht : drainDeferredCabacPackets env fuel s = some t) :
    t.deferred.length < s.deferred.length := by
  cases fuel with
  | zero => omega
  | succ fuel =>
      have hdrop := dropSubmitted_length_le s
      have hs' : FecInv (dropSubmittedDeferredFramePackets s) :=
        fecInv_step (.queue _) hs
      rw [drainDeferredCabacPackets] at ht
      split at ht
      · rename_i hq
        rw [← Option.some.inj ht, hq]
        exact List.length_pos_iff.mpr hqueue
      · rename_i front rest hq
        rw [hq, List.length_cons] at hdrop
        rw [if_pos (.inr (.inl hsubmitted))] at ht
        have hinv := fecInv_step (.queue rest) hs'
        have hlen : (replayPacket env ((dropSubmittedDeferredFramePackets
            s).setDeferred rest) front).2.deferred.length = rest.length := by
          rw [replayPacket_deferred env hinv front]
          rfl
        obtain ⟨u, hu, hle⟩ := drain_isSome env
          (fecInv_steps (replayPacket_steps env hinv front) hinv)
          (n := fuel) (by omega)
        rw [ht] at hu
        obtain rfl := Option.some.inj hu
        omega

theorem drain_of_nil (env : FecEnv) {fuel : ℕ} {s : Fec}
    (hqueue : s.deferred = []) (hfuel : 0 < fuel) :
    drainDeferredCabacPackets env fuel s = some s := by
  cases fuel with
  | zero => omega
  | succ fuel =>
      have hdrop : dropSubmittedDeferredFramePackets s = s := by
        rw [dropSubmittedDeferredFramePackets, hqueue, List.dropWhile_nil,
          ← hqueue]
        rfl
      rw [drainDeferredCabacPackets]
      simp only [hdrop, hqueue]

theorem drain_steps {env : FecEnv} {fuel : ℕ} {s t : Fec} (hs : FecInv s)
    (ht : drainDeferredCabacPackets env fuel s = some t) : FecSteps s t := by
  refine drain_invariant (FecSteps s) (fun u hu => hu.tail (.queue _)) ?_
    .refl ht
  intro u front rest hu _ _
  have hqueue := hu.tail (.queue rest)
  exact hqueue.trans (replayPacket_steps env (fecInv_steps hqueue hs) front)

/-- A frame that another packet has to wait for is concluded when that packet
cannot wait. -/
theorem concludeFrame_submitted (env : FecEnv) {s : Fec} (hs : FecInv s)
    {c : FecConfig} (hneeds : currentFrameNeedsCabacDefer c s) :
    (concludeFrame env s).frameSubmitted = true := by
  simp only [currentFrameNeedsCabacDefer, Bool.and_eq_true, bne_iff_ne,
    ne_eq, Bool.not_eq_true', decide_eq_true_eq] at hneeds
  obtain ⟨⟨⟨⟨⟨-, hcurrent⟩, hopen⟩, hcount⟩, -⟩, -⟩ := hneeds
  have hguard : s.currentFrame ≠ noFrame ∧ !s.frameSubmitted ∧
      s.receivedCount > 0 := ⟨hcurrent, by simpa using hopen, by omega⟩
  rw [concludeFrame, if_pos hguard]
  exact (hs.concluded env (.inl hguard.2.2)).submitted

theorem not_needsCabacDefer_of_submitted {c : FecConfig} {s : Fec}
    (h : s.frameSubmitted = true) : currentFrameNeedsCabacDefer c s = false := by
  simp [currentFrameNeedsCabacDefer, h]

theorem deferCabacNewerPacket_eq_some {s t : Fec} {packet : Packet}
    {frameIndex : UInt32}
    (ht : deferCabacNewerPacket s packet frameIndex = some t) :
    t = s.setDeferred (s.deferred ++ [packet]) ∧
      packet.length ≤ maxPktSize ∧ deferSpan s frameIndex = 1 := by
  rw [deferCabacNewerPacket] at ht
  split at ht
  · exact nomatch ht
  · simp only [cabacDeferredFrameSpanMax] at *
    exact ⟨(Option.some.inj ht).symm, by omega, by omega⟩

/-- The packet that a frame transition is about is put aside, or placed after
the frames before it were concluded. -/
theorem processFrameTransition_spec (env : FecEnv) {packet : Packet}
    {h : FecHeader} (hh : Taken packet h) {fuel : ℕ} {s : Fec} (hs : FecInv s)
    (hfuel : s.deferred.length +
      (currentFrameNeedsCabacDefer env.config s).toNat < fuel) :
    ∃ r, processFrameTransition env h packet fuel s = some r ∧
      FecSteps s r.2 := by
  induction fuel generalizing s with
  | zero => omega
  | succ fuel ih =>
      rw [processFrameTransition]
      split
      · rename_i hguard
        split
        · rename_i t hdefer
          obtain ⟨rfl, -, -⟩ := deferCabacNewerPacket_eq_some hdefer
          exact ⟨_, rfl, .single (.queue _)⟩
        · have hconclude := concludeFrame_steps env (s := s)
          have hinv := fecInv_steps hconclude hs
          have hqueue := concludeFrame_deferred env hs
          have hsubmitted := concludeFrame_submitted env hs hguard.2.2
          obtain ⟨t, ht, hle⟩ := drain_isSome env hinv
            (n := s.deferred.length + 1) (by rw [hqueue]; omega)
          have hdrain := drain_steps hinv ht
          have hneeds : t.deferred.length +
              (currentFrameNeedsCabacDefer env.config t).toNat < fuel := by
            simp only [hguard.2.2, Bool.toNat_true] at hfuel
            by_cases hnil : s.deferred = []
            · rw [drain_of_nil env (by rw [hqueue, hnil]) (by omega)] at ht
              obtain rfl := Option.some.inj ht
              rw [not_needsCabacDefer_of_submitted hsubmitted, hqueue]
              simpa using hfuel
            · have hlt := drain_shortens hinv (by rw [hqueue]; omega)
                hsubmitted (by rwa [hqueue]) ht
              have hone := Bool.toNat_le
                (currentFrameNeedsCabacDefer env.config t)
              rw [hqueue] at hlt
              omega
          obtain ⟨r, hr, hsteps⟩ := ih (fecInv_steps hdrain hinv) hneeds
          exact ⟨r, by simp only [ht, Option.bind_eq_bind, Option.bind_some, hr],
            (hconclude.trans hdrain).trans hsteps⟩
      · exact ⟨_, rfl, (enterFrame_steps env hs hh).trans
          (placePacket_steps env hh)⟩

theorem arrivingPacket_spec (env : FecEnv) {s : Fec} (hs : FecInv s)
    (packet : Packet) :
    ∃ r, arrivingPacket env s packet = some r ∧ FecSteps s r.2 := by
  rw [arrivingPacket]
  split
  · exact ⟨_, rfl, .refl⟩
  · exact ⟨_, rfl, .single (.late _ _)⟩
  · exact ⟨_, rfl, .refl⟩
  · rename_i h hscreen
    have hone := Bool.toNat_le (currentFrameNeedsCabacDefer env.config s)
    exact processFrameTransition_spec env (screenPacket_taken hscreen).1 hs
      (by omega)

/-- A call ends, and it is a number of small steps. -/
theorem rtpFecAddPacket_spec (env : FecEnv) {s : Fec} (hs : FecInv s)
    (packet : Packet) :
    ∃ r, rtpFecAddPacket env s packet = some r ∧ FecSteps s r.2 := by
  obtain ⟨t, ht, -⟩ := drain_isSome env hs (Nat.lt_succ_self _)
  have hst := drain_steps hs ht
  have htinv := fecInv_steps hst hs
  obtain ⟨⟨consumed, u⟩, hu, htu⟩ := arrivingPacket_spec env htinv packet
  have huinv := fecInv_steps htu htinv
  obtain ⟨v, hv, -⟩ := drain_isSome env huinv (Nat.lt_succ_self _)
  refine ⟨(consumed, v), ?_, (hst.trans htu).trans (drain_steps huinv hv)⟩
  simp only [rtpFecAddPacket, ht, hu, hv, Option.bind_eq_bind,
    Option.bind_some, Option.pure_def]

/-! ## Runs -/

theorem fecInv_reset {s : Fec} : FecInv (rtpFecReset s) :=
  ⟨.inl ⟨rfl, rfl, rfl, rfl, rfl, fun _ => rfl⟩,
    fun _ p (h : none = some p) => (Option.some_ne_none p h.symm).elim,
    fun _ (h : (none : Option Packet).isSome) => Bool.noConfusion h⟩

/-- A property that small steps, the audio side and a reset keep holds at the
end of a run, and every run has an end. -/
theorem run_invariant (P : Fec → Prop) (hinv : ∀ s, P s → FecInv s)
    (hstep : ∀ s t, P s → FecStep s t → P t)
    (haudio : ∀ s rs, P s → P (s.setRs rs))
    (hreset : ∀ s, P s → P (rtpFecReset s)) (inputs : List FecInput) {s : Fec}
    (hs : P s) : ∃ t, s.run inputs = some t ∧ P t := by
  have hsteps : ∀ s t, P s → FecSteps s t → P t := by
    intro s t hs hst
    induction hst with
    | refl => exact hs
    | tail _ h ih => exact hstep _ _ ih h
  induction inputs generalizing s with
  | nil => exact ⟨s, rfl, hs⟩
  | cons i rest ih =>
      cases i with
      | packet env packet =>
          obtain ⟨r, hr, hst⟩ := rtpFecAddPacket_spec env (hinv s hs) packet
          obtain ⟨t, ht, hP⟩ := ih (hsteps s r.2 hs hst)
          exact ⟨t, by simp [Fec.run, Fec.step, hr, ht], hP⟩
      | audio block =>
          obtain ⟨t, ht, hP⟩ := ih (haudio s _ hs)
          exact ⟨t, by simpa [Fec.run, Fec.step] using ht, hP⟩
      | reset =>
          obtain ⟨t, ht, hP⟩ := ih (hreset s hs)
          exact ⟨t, by simpa [Fec.run, Fec.step] using ht, hP⟩

end MoonlightPsp.RtpFec

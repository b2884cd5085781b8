import MoonlightPsp.RtpFec.Deferral

/-!
# The FEC layer: parity packets

A packet that the layer does not consume goes to reassembly as it is, where a
parity packet would be taken for picture data.  A parity packet is left over
where the checks take it but the frame that it comes into has no slot for it.
-/

namespace MoonlightPsp.RtpFec

open ReedSolomon

/-! ## Between two calls -/

/-- No packet of the queue can be replayed before something else happens. -/
def Drained (s : Fec) : Prop :=
  ∀ front rest, s.deferred = front :: rest → ¬canReplay s front

theorem Drained.setRs {s : Fec} (hs : Drained s) (rs : SharedRs) :
    Drained (s.setRs rs) :=
  hs

theorem drained_of_drain {env : FecEnv} {fuel : ℕ} {s t : Fec}
    (ht : drainDeferredCabacPackets env fuel s = some t) : Drained t := by
  intro front rest hq
  rcases drain_stops ht with hnil | ⟨front', rest', hq', hstop⟩
  · rw [hnil] at hq
    exact nomatch hq
  · rw [hq'] at hq
    obtain ⟨rfl, -⟩ := List.cons.inj hq
    exact hstop

/-- A drained queue stays as it is. -/
theorem Drained.drain {s : Fec} (hs : Drained s) (env : FecEnv) (fuel : ℕ) :
    drainDeferredCabacPackets env (fuel + 1) s = some s := by
  cases hq : s.deferred with
  | nil => exact drain_of_nil env hq (Nat.succ_pos fuel)
  | cons front rest =>
      have hstop := hs front rest hq
      have hopen : s.frameSubmitted = false := by
        simp only [canReplay, not_or, Bool.not_eq_true] at hstop
        exact hstop.2.1
      have hdrop : dropSubmittedDeferredFramePackets s = s := by
        rw [dropSubmittedDeferredFramePackets]
        simp only [hopen, Bool.false_and]
        rw [hq, List.dropWhile_cons_of_neg (by simp), ← hq]
        rfl
      rw [drainDeferredCabacPackets]
      simp only [hdrop, hq]
      rw [if_neg hstop]

/-- What holds of the layer between two calls. -/
structure AtRest (s : Fec) : Prop where
  inv : FecInv s
  drained : Drained s

theorem atRest_initial : AtRest Fec.initial :=
  ⟨fecInv_initial, fun _ _ h => nomatch h⟩

theorem rtpFecAddPacket_atRest (env : FecEnv) {s : Fec} (hs : AtRest s)
    (packet : Packet) :
    ∃ r, rtpFecAddPacket env s packet = some r ∧ AtRest r.2 := by
  obtain ⟨r, hr, hsteps⟩ := rtpFecAddPacket_spec env hs.inv packet
  refine ⟨r, hr, fecInv_steps hsteps hs.inv, ?_⟩
  obtain ⟨t, o, v, -, -, hlast, rfl⟩ := exists_of_rtpFecAddPacket hr
  exact drained_of_drain hlast

/-- Every run has an end, and the layer is at rest there. -/
theorem run_atRest (inputs : List FecInput) {s : Fec} (hs : AtRest s) :
    ∃ t, s.run inputs = some t ∧ AtRest t := by
  induction inputs generalizing s with
  | nil => exact ⟨s, rfl, hs⟩
  | cons i rest ih =>
      cases i with
      | packet env packet =>
          obtain ⟨r, hr, hrest⟩ := rtpFecAddPacket_atRest env hs packet
          obtain ⟨t, ht, hend⟩ := ih hrest
          exact ⟨t, by simp [Fec.run, Fec.step, hr, ht], hend⟩
      | audio block =>
          obtain ⟨t, ht, hend⟩ := ih
            (s := s.setRs (audioRtpFecComplete s.rs block).1)
            ⟨hs.inv.of_same (.setRs s _) rfl, hs.drained.setRs _⟩
          exact ⟨t, by simpa [Fec.run, Fec.step] using ht, hend⟩
      | reset =>
          obtain ⟨t, ht, hend⟩ := ih (s := rtpFecReset s)
            ⟨fecInv_reset, fun _ _ h => (List.cons_ne_nil _ _ h.symm).elim⟩
          exact ⟨t, by simpa [Fec.run, Fec.step] using ht, hend⟩

/-- A call between two calls is the arrival of its packet, and then a drain. -/
theorem AtRest.addPacket_eq {s : Fec} (hs : AtRest s) (env : FecEnv)
    (packet : Packet) :
    ∃ o t, arrivingPacket env s packet = some o ∧
      rtpFecAddPacket env s packet = some (o.1, t) := by
  obtain ⟨r, hr, -⟩ := rtpFecAddPacket_spec env hs.inv packet
  obtain ⟨t, o, v, hfirst, harrive, -, rfl⟩ := exists_of_rtpFecAddPacket hr
  rw [hs.drained.drain] at hfirst
  obtain rfl := Option.some.inj hfirst
  exact ⟨o, v, harrive, hr⟩

/-! ## The slot of a packet -/

/-- A frame in `num` blocks has a slot for the packet.  The numbers are those
that the frame was opened with. -/
def InShape (num : ℕ) (lowestSeq : UInt16) (total : ℕ) (h : FecHeader) : Prop :=
  if num > 1 then h.fecIndex < slotsPerBlock num ∧
    h.fecBlockNum * slotsPerBlock num + h.fecIndex < fecMaxPackets
  else (h.seq - lowestSeq).toNat < total

/-- The frame that the packet comes into has a slot for it: the current frame, or
else the one that it opens. -/
def ComesIntoSlot (s : Fec) (h : FecHeader) : Prop :=
  if h.frameIndex = s.currentFrame then
    InShape s.numFecBlocks s.lowestSeq s.totalPackets h
  else
    InShape h.multiFecTotal (h.seq - UInt16.ofNat h.fecIndex) h.totalPkts h

/-- The packet has to wait for the current frame. -/
def HasToWait (env : FecEnv) (s : Fec) (h : FecHeader) : Prop :=
  h.frameIndex ≠ s.currentFrame ∧ h.frameIndex > s.currentFrame ∧
    currentFrameNeedsCabacDefer env.config s

/-- The packet is not put aside, and comes into a frame without a slot for it.
Where it has to wait but the queue refuses it, that is so once the current frame
and the queue are dealt with. -/
inductive LeftOver (env : FecEnv) (packet : Packet) (h : FecHeader) :
    Fec → Prop where
  | atOnce {s : Fec} (hgoes : ¬HasToWait env s h)
      (hout : ¬ComesIntoSlot s h) : LeftOver env packet h s
  | afterQueue {s t : Fec} (hwaits : HasToWait env s h)
      (hrefused : deferCabacNewerPacket s packet h.frameIndex = none)
      (hdrain : drainDeferredCabacPackets env (s.deferred.length + 1)
        (concludeFrame env s) = some t)
      (hrest : LeftOver env packet h t) : LeftOver env packet h s

theorem slotIndex_isSome_iff {s : Fec} (hs : FecInv s) (h : FecHeader) :
    (slotIndex s h).isSome ↔
      InShape s.numFecBlocks s.lowestSeq s.totalPackets h := by
  rcases hs.shape with hblank | hshape
  · simp [slotIndex, InShape, hblank.numFecBlocks, hblank.totalPackets]
  · have hmax := hshape.max h.fecBlockNum
    have hbase := hshape.base h.fecBlockNum
    have htotal := hshape.total_le
    rw [slotIndex, InShape]
    simp only [hmax, hbase]
    split
    · split
      · rename_i hge
        simp [Nat.not_lt.mpr hge]
      · rename_i hlt
        simp [Option.filter, Nat.lt_of_not_le hlt]
    · split
      · rename_i hge
        simp [Nat.not_lt.mpr hge]
      · rename_i hlt
        have hroom : (h.seq - s.lowestSeq).toNat < fecMaxPackets := by omega
        simp [Option.filter, hroom, Nat.lt_of_not_le hlt]

/-- Whether a packet is placed only depends on the slots of its frame. -/
theorem placePacket_fst (env : FecEnv) {s : Fec} (hs : FecInv s)
    {packet : Packet} {h : FecHeader} (hh : Taken packet h) :
    (placePacket env s h packet).1 = true ↔
      InShape s.numFecBlocks s.lowestSeq s.totalPackets h := by
  have hinv := fecInv_step (.register hh) hs
  have hsame : (registerBlock s h).numFecBlocks = s.numFecBlocks ∧
      (registerBlock s h).lowestSeq = s.lowestSeq ∧
      (registerBlock s h).totalPackets = s.totalPackets := by
    rw [registerBlock]
    split <;> exact ⟨rfl, rfl, rfl⟩
  obtain ⟨hnum, hseq, htotal⟩ := hsame
  have hslot := slotIndex_isSome_iff hinv h
  rw [hnum, hseq, htotal] at hslot
  rw [← hslot, placePacket]
  cases hindex : slotIndex (registerBlock s h) h with
  | none => simp
  | some index => simp

/-- A packet that does not wait is consumed if it comes into a slot. -/
theorem take_fst (env : FecEnv) {s : Fec} (hs : FecInv s) {packet : Packet}
    {h : FecHeader} (hh : Taken packet h) :
    (placePacket env (enterFrame env s h) h packet).1 = true ↔
      ComesIntoSlot s h := by
  have hinv := fecInv_steps (enterFrame_steps env hs hh) hs
  rw [placePacket_fst env hinv hh, ComesIntoSlot, enterFrame]
  by_cases hframe : h.frameIndex = s.currentFrame
  · rw [if_pos hframe, if_neg (not_ne_iff.mpr hframe)]
  · rw [if_neg hframe, if_pos hframe]
    simp only [openFrame, Nat.min_eq_left hh.blocks_le]

/-! ## What is left over -/

theorem transition_fst (env : FecEnv) {packet : Packet} {h : FecHeader}
    (hh : Taken packet h) {fuel : ℕ} {s : Fec} {r : Bool × Fec}
    (hs : FecInv s)
    (hr : processFrameTransition env h packet fuel s = some r) :
    r.1 = true ↔ ¬LeftOver env packet h s := by
  induction fuel generalizing s with
  | zero => cases hr
  | succ fuel ih =>
      cases passed_of_eq hr with
      | deferred hwaits hdefer =>
          refine iff_of_true rfl fun hleft => ?_
          cases hleft with
          | atOnce hgoes _ => exact hgoes hwaits
          | afterQueue _ hrefused _ _ =>
              rw [hdefer] at hrefused
              cases hrefused
      | refused hwaits hrefused hdrain hr =>
          have hinv := fecInv_steps (concludeFrame_steps env) hs
          rw [ih (fecInv_steps (drain_steps hinv hdrain) hinv) hr, not_iff_not]
          refine ⟨.afterQueue hwaits hrefused hdrain, fun hleft => ?_⟩
          cases hleft with
          | atOnce hgoes _ => exact absurd hwaits hgoes
          | afterQueue _ _ hdrain' hrest =>
              rw [hdrain] at hdrain'
              obtain rfl := Option.some.inj hdrain'
              exact hrest
      | placed hgoes =>
          rw [take_fst env hs hh]
          refine ⟨fun hin hleft => ?_, fun hleft => ?_⟩
          · cases hleft with
            | atOnce _ hout => exact hout hin
            | afterQueue hwaits _ _ _ => exact hgoes hwaits
          · by_contra hout
            exact hleft (.atOnce hgoes hout)

/-- A parity packet is never left to reassembly by the checks. -/
theorem screenPacket_parity {c : FecConfig} {current : UInt32}
    {packet : Packet} {h : FecHeader} (hparse : parseFecHeader packet = some h)
    (hdata : 0 < h.dataPkts) (hparity : h.dataPkts ≤ h.fecIndex) :
    screenPacket c current packet ≠ .bypass := by
  have hblock := Nat.not_le.mpr (fecBlockNum_lt hparse)
  simp only [screenPacket, hparse, ge_iff_le, if_neg hblock]
  split_ifs <;> simp_all

/-- In every run, a parity packet is consumed if and only if it is not left over
in the frame that it comes into. -/
theorem parity_consumed_iff (inputs : List FecInput) (env : FecEnv)
    {packet : Packet} {h : FecHeader} (hparse : parseFecHeader packet = some h)
    (hdata : 0 < h.dataPkts) (hparity : h.dataPkts ≤ h.fecIndex) :
    ∃ s r, Fec.initial.run inputs = some s ∧
      rtpFecAddPacket env s packet = some r ∧
      (r.1 = true ↔
        (screenPacket env.config s.currentFrame packet = .taken h →
          ¬LeftOver env packet h s)) := by
  obtain ⟨s, hrun, hs⟩ := run_atRest inputs atRest_initial
  obtain ⟨o, t, ho, hcall⟩ := hs.addPacket_eq env packet
  refine ⟨s, (o.1, t), hrun, hcall, ?_⟩
  cases arrived_of_eq ho with
  | bypass hscreen =>
      exact absurd hscreen (screenPacket_parity hparse hdata hparity)
  | stale frame hscreen => simp [hscreen]
  | junk hscreen => simp [hscreen]
  | taken h' hscreen hpass =>
      have hh := (screenPacket_taken hscreen).1
      have hsame : h' = h := Option.some.inj (hh.parse.symm.trans hparse)
      subst hsame
      rw [transition_fst env hh hs.inv hpass]
      simp [hscreen]

/-- The first packet of a frame of one data and one parity packet, if it is the
parity packet. -/
theorem parity_consumed_first :
    ∃ s r, Fec.initial.run [] = some s ∧
      rtpFecAddPacket (sampleEnv 0) s (barePacket 1 7 0 1 1 100) = some r ∧
      (r.1 = true ↔
        (screenPacket (sampleEnv 0).config s.currentFrame
            (barePacket 1 7 0 1 1 100) = .taken ⟨1, 7, 1, 1, 1, 2, 0, 1⟩ →
          ¬LeftOver (sampleEnv 0) (barePacket 1 7 0 1 1 100)
            ⟨1, 7, 1, 1, 1, 2, 0, 1⟩ s)) :=
  @parity_consumed_iff [] (sampleEnv 0) (barePacket 1 7 0 1 1 100)
    ⟨1, 7, 1, 1, 1, 2, 0, 1⟩ rfl (by decide) (by decide)

/-- A block of 30 data and 6 parity packets, in a frame of four blocks with 32
slots each: the third parity packet is left to reassembly. -/
theorem parity_left_over :
    ¬∀ (inputs : List FecInput) (env : FecEnv) (packet : Packet)
      (h : FecHeader), parseFecHeader packet = some h → 0 < h.dataPkts →
        h.dataPkts ≤ h.fecIndex → ∀ s, Fec.initial.run inputs = some s →
          ∃ r, rtpFecAddPacket env s packet = some r ∧ r.1 = true := by
  intro hall
  obtain ⟨r, hr, hconsumed⟩ := hall [] (sampleEnv 0)
    (barePacket 32 7 0xC0 30 32 20) ⟨32, 7, 30, 32, 6, 36, 0, 4⟩ rfl
    (by decide) (by decide) _ rfl
  have hleft : (rtpFecAddPacket (sampleEnv 0) Fec.initial
      (barePacket 32 7 0xC0 30 32 20)).map Prod.fst = some false := by
    decide +kernel
  rw [hr, Option.map_some, hconsumed] at hleft
  exact absurd hleft (by decide)

end MoonlightPsp.RtpFec

import MoonlightPsp.RtpFec.Fates
import MoonlightPsp.RtpFec.FrameRecovery

/-!
# The FEC layer: delivering a frame

In a CAVLC stream, with the Reed-Solomon context left to the video, the packets of a
frame come in any order, some of them more than once and some of them not at all.  As
long as there are as many of them as the frame has data packets, reassembly receives
the data packets as they were sent.
-/

namespace MoonlightPsp.RtpFec

open ReedSolomon SerialNumber

/-! ## Calls -/

/-- The calls for some packets, one after the other, with whether they were consumed. -/
def Fec.receive (s : Fec) : List (FecEnv × Packet) → Option (List Bool × Fec)
  | [] => some ([], s)
  | (env, packet) :: rest => do
      let (consumed, s) ← rtpFecAddPacket env s packet
      let (more, s) ← s.receive rest
      pure (consumed :: more, s)

/-- An input of a CAVLC stream whose Reed-Solomon context the audio side does not use. -/
def FecInput.IsPrivateCavlc : FecInput → Prop
  | .packet env _ => fecStreamIsCabac env.config = false
  | .audio _ => False
  | .reset => True

/-- Nothing is put aside, and the context is as the video side left it. -/
structure Undisturbed (s : Fec) : Prop where
  inv : FecInv s
  queue : s.deferred = []
  rs : Tracked s.rs false

theorem undisturbed_initial : Undisturbed Fec.initial :=
  ⟨fecInv_initial, rfl, tracked_initial⟩

/-! ## The context -/

variable {env : FecEnv} {s t : Fec}

theorem videoReconstruct_tracked {rs : SharedRs} (h : Tracked rs false) (ds ps total : ℕ)
    (packets : ℕ → Buf) (marks : ℕ → Bool) (size : ℕ) :
    Tracked (videoReconstruct rs ds ps total packets marks size).1 false := by
  have hspec := videoReconstruct_spec h ds ps total packets marks size
  rw [if_neg (by simp)] at hspec
  exact hspec.2.1

theorem submitFramePackets_rs (env : FecEnv) (s : Fec) :
    (submitFramePackets env s).rs = s.rs := by
  rw [submitFramePackets, submitSlots]
  split
  · rfl
  · split
    · rfl
    · rfl

theorem requeueBlock_rs (c : FecConfig) (s : Fec) (b : ℕ) (blk : FecBlock)
    (marks : ℕ → Bool) (rebuilt : ℕ → Buf) (size : ℕ) :
    (requeueBlock c s b blk marks rebuilt size).rs = s.rs := by
  rw [requeueBlock]
  refine Loops.fold_invariant (fun _ (t : Fec) => t.rs = s.rs) rfl ?_
  intro i hi t ht
  split
  · exact ht
  · exact ht

theorem requeueFrame_rs (c : FecConfig) (s : Fec) (marks : ℕ → Bool)
    (rebuilt : ℕ → Buf) (size : ℕ) :
    (requeueFrame c s marks rebuilt size).s.rs = s.rs := by
  rw [requeueFrame]
  refine Loops.fold_invariant (fun _ (q : RequeueState) => q.s.rs = s.rs) rfl ?_
  intro i hi q hq
  rw [requeueOne]
  split
  · exact hq
  · simp only
    split
    · exact hq
    · exact hq

theorem recoverBlock_tracked (c : FecConfig) (hs : Tracked s.rs false) (b : ℕ) :
    Tracked (recoverBlock c s b).2.rs false := by
  rw [recoverBlock]
  split
  · exact hs
  split
  · exact hs
  split
  · exact hs
  have hrs := videoReconstruct_tracked hs (s.fecBlocks b).dataPackets
    (s.fecBlocks b).parityPackets (s.fecBlocks b).totalPackets
    (shardBuffers s (s.fecBlocks b).baseSlot) (blockMarks s (s.fecBlocks b))
    (fecRecoverySymbolSize c)
  revert hrs
  generalize videoReconstruct _ _ _ _ _ _ _ = o
  intro hrs
  rcases o with ⟨rs, _ | r⟩
  · exact hrs
  · simp only [finishBlock]
    split
    · rw [requeueBlock_rs]
      exact hrs
    · exact hrs

theorem finishFrame_tracked (env : FecEnv) (s : Fec) (missing : ℕ)
    {o : SharedRs × Option Reconstruction} (ho : Tracked o.1 false) :
    Tracked (finishFrame env s missing o).rs false := by
  rcases o with ⟨rs, _ | r⟩
  · exact ho
  · simp only [finishFrame]
    split
    · split
      · show Tracked (requeueFrame _ _ _ _ _).s.rs false
        rw [requeueFrame_rs]
        exact ho
      · rw [submitFramePackets_rs]
        show Tracked (requeueFrame _ _ _ _ _).s.rs false
        rw [requeueFrame_rs]
        exact ho
    · exact ho

theorem attemptRecoveryAndSubmit_tracked (env : FecEnv) (hs : Tracked s.rs false) :
    Tracked (attemptRecoveryAndSubmit env s).rs false := by
  rw [attemptRecoveryAndSubmit]
  split
  · have hscan : Tracked (scanBlocks env.config s).s.rs false := by
      rw [scanBlocks]
      refine Loops.fold_invariant (fun _ (r : BlockScan) => Tracked r.s.rs false) hs ?_
      intro b hb r hr
      exact recoverBlock_tracked env.config hr b
    rw [attemptMultiBlockRecoveryAndSubmit]
    split
    · exact hscan
    · rw [submitFramePackets_rs]
      exact hscan
  · rw [attemptSingleBlock]
    simp only
    split
    · rw [submitFramePackets_rs]
      exact hs
    split
    · rw [submitFramePackets_rs]
      exact hs
    split
    · exact hs
    split
    · exact hs
    · apply finishFrame_tracked
      exact videoReconstruct_tracked hs _ _ _ _ _ _

theorem storePacket_statics (s : Fec) (h : FecHeader) (index : ℕ) (packet : Packet) :
    (storePacket s h index packet).parityPackets = s.parityPackets ∧
      (storePacket s h index packet).rs = s.rs := by
  rw [storePacket]
  split
  · exact ⟨rfl, rfl⟩
  · simp only [countForBlock, countForFrame, markFramePacketReceived]
    split
    · split
      · exact ⟨rfl, rfl⟩
      · exact ⟨rfl, rfl⟩
    · split
      · exact ⟨rfl, rfl⟩
      · exact ⟨rfl, rfl⟩

/-- Without the audio side every step leaves the context to the video. -/
theorem fecStep_tracked (hstep : FecStep s t) (hs : Tracked s.rs false) :
    Tracked t.rs false := by
  cases hstep with
  | conclude env _ _ => exact attemptRecoveryAndSubmit_tracked env hs
  | enter => exact hs
  | register hh =>
      rw [registerBlock]
      split
      · exact hs
      · exact hs
  | store hh hslot =>
      rw [(storePacket_statics _ _ _ _).2]
      exact hs
  | late => exact hs
  | queue => exact hs

theorem fecSteps_tracked (hsteps : FecSteps s t) (hs : Tracked s.rs false) :
    Tracked t.rs false := by
  induction hsteps with
  | refl => exact hs
  | tail _ hstep ih => exact fecStep_tracked hstep ih

/-! ## A call in a CAVLC stream -/

variable {packet : Packet} {h : FecHeader}

/-- A packet that is taken goes on to its slot at once. -/
theorem rtpFecAddPacket_of_taken (hcavlc : fecStreamIsCabac env.config = false)
    (hs : Undisturbed s)
    (hscreen : screenPacket env.config s.currentFrame packet = .taken h) :
    rtpFecAddPacket env s packet = some (placePacket env (enterFrame env s h) h packet) := by
  have hwaits : ¬(h.frameIndex ≠ s.currentFrame ∧ h.frameIndex > s.currentFrame ∧
      currentFrameNeedsCabacDefer env.config s) := by
    rintro ⟨-, -, hneeds⟩
    simp [currentFrameNeedsCabacDefer, hcavlc] at hneeds
  obtain ⟨-, -, hqueue⟩ := take_spec env hs.inv (screenPacket_taken hscreen).1
  have hfirst := drain_of_nil env hs.queue (Nat.succ_pos s.deferred.length)
  have hlast := drain_of_nil env (hqueue.trans hs.queue) (Nat.succ_pos
    (placePacket env (enterFrame env s h) h packet).2.deferred.length)
  simp only [rtpFecAddPacket, hfirst, arrivingPacket, hscreen, processFrameTransition,
    if_neg hwaits, hlast, Option.bind_eq_bind, Option.bind_some, Option.pure_def]

/-- Every call ends, with nothing put aside. -/
theorem Undisturbed.call (hcavlc : fecStreamIsCabac env.config = false)
    (hs : Undisturbed s) (packet : Packet) :
    ∃ r, rtpFecAddPacket env s packet = some r ∧ Undisturbed r.2 := by
  obtain ⟨r, hr, hsteps⟩ := rtpFecAddPacket_spec env hs.inv packet
  have hqueue : r.2.deferred = [] := by
    have hfirst := drain_of_nil env hs.queue (Nat.succ_pos s.deferred.length)
    cases hscreen : screenPacket env.config s.currentFrame packet with
    | taken h =>
        rw [rtpFecAddPacket_of_taken hcavlc hs hscreen] at hr
        obtain ⟨-, -, hkept⟩ := take_spec env hs.inv (screenPacket_taken hscreen).1
        obtain rfl := Option.some.inj hr
        exact hkept.trans hs.queue
    | bypass =>
        simp only [rtpFecAddPacket, hfirst, arrivingPacket, hscreen, Option.bind_eq_bind,
          Option.bind_some, Option.pure_def] at hr
        obtain rfl := Option.some.inj hr
        exact hs.queue
    | stale frame =>
        have hlast := drain_of_nil env (s := s.emit (.late frame false)) hs.queue
          (Nat.succ_pos s.deferred.length)
        simp only [rtpFecAddPacket, hfirst, arrivingPacket, hscreen, Option.bind_eq_bind,
          Option.bind_some, Option.pure_def] at hr
        rw [show (s.emit (.late frame false)).deferred = s.deferred from rfl, hlast] at hr
        obtain rfl := Option.some.inj hr
        exact hs.queue
    | junk =>
        simp only [rtpFecAddPacket, hfirst, arrivingPacket, hscreen, Option.bind_eq_bind,
          Option.bind_some, Option.pure_def] at hr
        obtain rfl := Option.some.inj hr
        exact hs.queue
  exact ⟨r, hr, fecInv_steps hsteps hs.inv, hqueue, fecSteps_tracked hsteps hs.rs⟩

/-- Every run without the audio side ends like that. -/
theorem run_undisturbed {inputs : List FecInput}
    (hinputs : ∀ i ∈ inputs, i.IsPrivateCavlc) (hs : Undisturbed s)
    (ht : s.run inputs = some t) : Undisturbed t := by
  induction inputs generalizing s with
  | nil =>
      obtain rfl := Option.some.inj ht
      exact hs
  | cons i rest ih =>
      obtain ⟨hi, hrest⟩ := List.forall_mem_cons.mp hinputs
      obtain ⟨u, hu, ht⟩ := Option.bind_eq_some_iff.mp ht
      cases i with
      | packet env packet =>
          obtain ⟨r, hr, hcall⟩ := hs.call hi packet
          rw [Fec.step, hr] at hu
          obtain rfl := Option.some.inj hu
          exact ih hrest hcall ht
      | audio block => exact hi.elim
      | reset =>
          obtain rfl := Option.some.inj hu
          exact ih hrest ⟨fecInv_reset, rfl, hs.rs.reset.1⟩ ht

/-! ## A frame in its slots -/

variable {F : SentFrame} {start : List FecEvent}

/-- How the frame is cut into packets. -/
def SentFrame.shape (F : SentFrame) (hpos : 0 < F.dataPkts)
    (htotal : F.totalPkts ≤ fecMaxPackets) : FrameShape where
  blocks := 1
  data := fun _ => F.dataPkts
  total := F.totalPkts
  firstSeq := F.firstSeq
  blocks_pos := Nat.one_pos
  data_pos := fun _ _ => hpos
  fits := fun _ _ => (Nat.le_add_right _ _).trans htotal

/-- The layer has some packets of the frame in their slots, as they were sent. -/
structure Held (F : SentFrame) (hpos : 0 < F.dataPkts)
    (htotal : F.totalPkts ≤ fecMaxPackets) (s : Fec) : Prop where
  collecting : Collecting (F.shape hpos htotal) s
  marked : Marked s
  current : F.IsCurrent s
  original : Original F s

variable {hpos : 0 < F.dataPkts} {htotal : F.totalPkts ≤ fecMaxPackets}

/-- A packet of the frame passes for one, and has its place there. -/
theorem taken_packet (hF : F.WellFormed) (htotal : F.totalPkts ≤ fecMaxPackets) {i : ℕ}
    (hi : i < F.totalPkts) : Taken (F.packets i) (F.header i) where
  parse := hF.header i hi
  data_pos := hF.data_pos
  data_le := Nat.le_add_right _ _
  total_le := htotal
  index_lt := hi
  blocks_pos := Nat.one_pos
  blocks_le := show 1 ≤ 4 by decide
  block_lt := show 0 < 4 by decide

theorem has_header {i : ℕ} (hi : i < F.totalPkts) :
    (F.shape hpos htotal).Has (F.header i) where
  blocks := rfl
  block_lt := by
    rw [FrameShape.block_of_single rfl]
    exact Nat.one_pos
  data := rfl
  index_lt := Nat.lt_of_lt_of_le hi htotal
  numbered := fun _ => ⟨rfl, rfl⟩

/-- The first packet opens the frame. -/
theorem held_openFrame (hF : F.WellFormed) {i : ℕ} (hi : i < F.totalPkts) (s : Fec) :
    Held F hpos htotal (openFrame s (F.header i)) := by
  have hcollecting : Collecting (F.shape hpos htotal) (openFrame s (F.header i)) :=
    collecting_openFrame (taken_packet hF htotal hi) (has_header hi) s
  obtain ⟨hdata, htotal', hseq, -⟩ := hcollecting.single rfl
  exact ⟨hcollecting, marked_of_none (fun _ => rfl) (fun _ => rfl) rfl,
    ⟨rfl, hseq, hdata, rfl, htotal', hcollecting.blocks⟩, fun _ _ h => nomatch h⟩

/-- A packet that is stored stays as it was sent. -/
theorem Held.store (hs : Held F hpos htotal s) (hF : F.WellFormed) {c : FecConfig}
    (hfits : F.FitsLayer c) {i : ℕ} (hi : i < F.totalPkts) :
    slotIndex s (F.header i) = some i ∧
      Held F hpos htotal (storePacket s (F.header i) i (F.packets i)) := by
  have hbounds := fecConfiguredPacketSize_bounds c
  have hsize := hfits.packetSize
  have hcases := F.nvOffset_cases
  have hh := taken_packet hF htotal hi
  have hhas : (F.shape hpos htotal).Has (F.header i) := has_header hi
  have hslot : (F.shape hpos htotal).slot ((F.shape hpos htotal).block (F.header i))
      (F.header i).fecIndex = i := by
    rw [FrameShape.block_of_single rfl, FrameShape.slot, Nat.zero_mul, Nat.zero_add]
    rfl
  have hindex := (hs.collecting.slotIndex_eq hh hhas).1
  have hstore := hs.collecting.store hh hhas fun hmany => absurd hmany (Nat.lt_irrefl 1)
  rw [hslot] at hindex hstore
  have hsizes := storePacket_sizes s (F.header i) i (F.packets i)
  have hstatics := storePacket_statics s (F.header i) i (F.packets i)
  refine ⟨hindex, hstore, hs.marked.store (Nat.le_of_eq hs.current.numFecBlocks) _ _ hindex,
    ?_, ?_⟩
  · exact ⟨hsizes.currentFrame.trans hs.current.currentFrame,
      hsizes.lowestSeq.trans hs.current.lowestSeq,
      hsizes.dataPackets.trans hs.current.dataPackets,
      hstatics.1.trans hs.current.parityPackets,
      hsizes.totalPackets.trans hs.current.totalPackets,
      hsizes.numFecBlocks.trans hs.current.numFecBlocks⟩
  · intro j p hp
    by_cases hsome : (s.slots i).isSome
    · rw [storePacket_of_isSome _ _ hsome] at hp
      exact hs.original j p hp
    · rw [(storePacket_of_isNone _ _ hsome).2.1] at hp
      by_cases heq : j = i
      · subst heq
        rw [Function.update_self] at hp
        obtain rfl := Option.some.inj hp
        refine ⟨hi, List.take_of_length_le ?_⟩
        rw [maxPktSize]
        by_cases hdata : j < F.dataPkts
        · rw [hF.length_data j hdata]
          omega
        · rw [hF.length_parity j hi (by omega), SentFrame.symbolSize, maxRtpHeaderSize]
          omega
      · rw [Function.update_of_ne heq] at hp
        exact hs.original j p hp

theorem Held.of_same (hs : Held F hpos htotal s) (hsame : SameFrame s t)
    (hslots : t.slots = s.slots) : Held F hpos htotal t := by
  have hstored : ∀ b, (F.shape hpos htotal).stored t b = (F.shape hpos htotal).stored s b := by
    intro b
    rw [FrameShape.stored, FrameShape.stored, hslots]
  refine ⟨⟨hs.collecting.shaped.of_same hsame, ?_, ?_, ?_,
    fun hmany => absurd hmany (Nat.lt_irrefl 1), ?_⟩, ⟨?_, ?_, ?_⟩, hs.current.of_same hsame,
    ?_⟩
  · intro i p hp
    rw [hslots] at hp
    exact hs.collecting.hold i p hp
  · exact hsame.numFecBlocks.trans hs.collecting.blocks
  · intro hone
    rw [hsame.dataPackets, hsame.totalPackets, hsame.lowestSeq, hsame.receivedDataCount,
      hstored]
    exact hs.collecting.single hone
  · intro i hi
    rw [hslots] at hi
    rw [hsame.receivedFromNetwork]
    exact hs.collecting.network i hi
  · intro i
    rw [hsame.receivedFromNetwork, hslots]
    exact hs.marked.slots i
  · intro i hi
    rw [hsame.receivedFromNetwork] at hi
    rw [hsame.totalPackets]
    exact hs.marked.lt i hi
  · rw [hsame.receivedCount, networkReceivedCount, hsame.networkReceived]
    exact hs.marked.count
  · intro i p hp
    rw [hslots] at hp
    exact hs.original i p hp

/-- A complete frame is submitted as it is. -/
theorem attempt_slots_of_complete (env : FecEnv) (hs : Held F hpos htotal s)
    (hcomplete : (F.shape hpos htotal).Complete s) :
    (attemptRecoveryAndSubmit env s).slots = s.slots := by
  have hmissing := missing_of_complete hs.collecting rfl hcomplete
  have hshaped := hs.collecting.shaped
  have hdata := hshaped.data_pos
  have hle := hshaped.data_le
  have hmax := hshaped.total_le
  rw [attemptRecoveryAndSubmit, if_neg (by rw [hs.current.numFecBlocks]; omega),
    attemptSingleBlock, if_neg (by omega), if_pos hmissing, submitFramePackets, submitSlots]
  split
  · rfl
  · split
    · rfl
    · rfl

/-- Complete frames have enough packets. -/
theorem enough_of_complete (hs : Held F hpos htotal s)
    (hcomplete : (F.shape hpos htotal).Complete s) :
    F.dataPkts ≤ networkReceivedCount s := by
  have hsubset : Finset.range F.dataPkts ⊆ networkReceived s := by
    intro i hi
    have hsome := hcomplete 0 Nat.one_pos i (Finset.mem_range.mp hi)
    rw [FrameShape.slot, Nat.zero_mul, Nat.zero_add, ← hs.marked.slots] at hsome
    have hlt := hs.marked.lt i hsome
    have hmax := hs.collecting.shaped.total_le
    exact mem_networkReceived.mpr ⟨by omega, hsome⟩
  have hcard := Finset.card_le_card hsubset
  rwa [Finset.card_range] at hcard

/-! ## What becomes of the frame -/

/-- What ends the frame among these events. -/
def endings (frame : UInt32) (events : List FecEvent) : List FecEvent :=
  events.filter (FecEvent.ends frame)

theorem endings_append (f : UInt32) (l m : List FecEvent) :
    endings f (l ++ m) = endings f l ++ endings f m :=
  List.filter_append l m

theorem endings_of_isQuiet {f : UInt32} {l : List FecEvent} (hl : ∀ e ∈ l, e.isQuiet) :
    endings f l = [] := by
  apply List.filter_eq_nil_iff.mpr
  intro e he
  have hquiet := hl e he
  cases e <;> simp_all [FecEvent.isQuiet, FecEvent.ends]

/-- Since the event list was `start`, the frame was delivered, once, or nothing has
become of it yet. -/
def Progress (F : SentFrame) (start : List FecEvent) (s : Fec) : Prop :=
  ∃ new, s.out = start ++ new ∧
    if s.frameSubmitted then
      ∃ sub, endings F.frameIndex new = [.submitted sub] ∧ F.DeliveredBy sub
    else endings F.frameIndex new = []

/-- Events that end no frame change nothing about that. -/
theorem Progress.grow (hs : Progress F start s) (hsubmitted : t.frameSubmitted = s.frameSubmitted)
    {new : List FecEvent} (hout : t.out = s.out ++ new)
    (hnew : endings F.frameIndex new = []) : Progress F start t := by
  obtain ⟨before, hbefore, hends⟩ := hs
  refine ⟨before ++ new, ?_, ?_⟩
  · rw [hout, hbefore, List.append_assoc]
  · rwa [hsubmitted, endings_append, hnew, List.append_nil]

/-- An open frame with enough packets is delivered by an attempt. -/
theorem Progress.attempt (hprogress : Progress F start s) (hF : F.WellFormed)
    (hfits : F.FitsLayer env.config) (hs : Held F hpos htotal s)
    (hrs : Tracked s.rs false) (hopen : s.frameSubmitted = false)
    (henough : F.dataPkts ≤ networkReceivedCount s) :
    Progress F start (attemptRecoveryAndSubmit env s) := by
  obtain ⟨before, hbefore, hends⟩ := hprogress
  rw [if_neg (by rw [hopen]; exact Bool.false_ne_true)] at hends
  obtain ⟨quiet, sub, hout, hquiet, hdelivered⟩ := attempt_delivers hF hfits hs.current hrs
    hs.original hs.marked henough
  have hsubmitted := (attemptRecoveryAndSubmit_concluded env hs.collecting.shaped
    hs.collecting.hold).submitted
  refine ⟨before ++ (quiet ++ [.submitted sub]), ?_, ?_⟩
  · rw [hout, hbefore]
    simp only [List.append_assoc]
  · rw [if_pos hsubmitted]
    refine ⟨sub, ?_, hdelivered⟩
    rw [endings_append, endings_append, hends, endings_of_isQuiet hquiet]
    simp [endings, FecEvent.ends, hdelivered.frame]

/-- A packet of the frame is consumed and stored, and the frame is delivered if it is
the last one that was missing. -/
theorem Held.place (hs : Held F hpos htotal s) (hF : F.WellFormed)
    (hfits : F.FitsLayer env.config) (hrs : Tracked s.rs false)
    (hprogress : Progress F start s) {i : ℕ} (hi : i < F.totalPkts) :
    let r := placePacket env s (F.header i) (F.packets i)
    r.1 = true ∧ Held F hpos htotal r.2 ∧ Progress F start r.2 ∧
      (∀ j, (s.slots j).isSome → (r.2.slots j).isSome) ∧ (r.2.slots i).isSome := by
  have hregister : registerBlock s (F.header i) = s := by
    rw [registerBlock, if_neg]
    rintro ⟨hmany, -⟩
    rw [hs.current.numFecBlocks] at hmany
    omega
  obtain ⟨hindex, hstore⟩ := hs.store hF hfits hi
  have hsizes := storePacket_sizes s (F.header i) i (F.packets i)
  have hsome := storePacket_isSome s (F.header i) i (F.packets i)
  have hkept : ∀ j, (s.slots j).isSome →
      ((storePacket s (F.header i) i (F.packets i)).slots j).isSome := by
    intro j hj
    by_cases hfull : (s.slots i).isSome
    · rwa [storePacket_of_isSome _ _ hfull]
    · rw [(storePacket_of_isNone _ _ hfull).2.1]
      by_cases heq : j = i
      · rw [heq, Function.update_self]
        rfl
      · rwa [Function.update_of_ne heq]
  have hstored : Progress F start (storePacket s (F.header i) i (F.packets i)) := by
    by_cases hfull : (s.slots i).isSome
    · rwa [storePacket_of_isSome _ _ hfull]
    · exact hprogress.grow hsizes.frameSubmitted (storePacket_of_isNone _ _ hfull).2.2.2 rfl
  rw [placePacket, hregister, hindex]
  simp only [submitIfReady]
  split
  · rename_i hready
    have hcomplete := hstore.collecting.ready_iff.mp hready.2
    have hslots := attempt_slots_of_complete env hstore hcomplete
    have hconcluded := attemptRecoveryAndSubmit_concluded env hstore.collecting.shaped
      hstore.collecting.hold
    rw [hslots]
    refine ⟨trivial, hstore.of_same hconcluded.same hslots, ?_, hkept, hsome⟩
    apply hstored.attempt hF hfits hstore
    · rwa [(storePacket_statics _ _ _ _).2]
    · simpa using hready.1
    · exact enough_of_complete hstore hcomplete
  · exact ⟨trivial, hstore, hstored, hkept, hsome⟩

end MoonlightPsp.RtpFec
